import TokenSale.Proofs.Overflow
import TokenSale.Proofs.PlanAccounting

/-!
# TokenSale.Proofs.LargerPayment

Paying more never buys less.  A larger payment is worth at least as much, as
much of it may be spent, and the longest prefix that it covers is at least as
long.  It comes to tiers that the smaller one did not reach, and a cost there
may leave the range of amounts: nothing else can be in its way.

* `Rate.toUnits_mono`, `Rate.toFunds_mono`, `spendable_mono` — the steps of a
  plan are monotone;
* `GetsToWalk.of_le` — a larger payment gets to the walk as well;
* `le_tokensIn_of_walk` — with more to spend a walk buys at least as much;
* `allocate_mono`, `overflow_of_larger` — two plans, and a plan against none;
* `allocate_larger` — the plan of a larger payment.
-/

namespace TokenSale

/-! ## conversions -/

namespace Rate

variable {r : Rate}

/-- A larger payment is worth at least as much. -/
theorem toUnits_mono {a b : Funds} {u v : Units} (hab : a ≤ b) (hu : r.toUnits a = some u)
    (hv : r.toUnits b = some v) : u ≤ v := by
  rw [Quantity.le_iff, toUnits_ok hu, toUnits_ok hv]
  exact Nat.div_le_div_right (Nat.mul_le_mul_right _ hab)

/-- What is kept for more units is at least as much. -/
theorem toFunds_mono {u v : Units} {a b : Funds} (huv : u ≤ v) (ha : r.toFunds u = some a)
    (hb : r.toFunds v = some b) : a ≤ b :=
  (isLeast_toFunds ha).2 ((Nat.mul_le_mul_right _ huv).trans (isLeast_toFunds hb).1)

end Rate

/-! ## up to the walk -/

section Plans

variable {policy : AllocationPolicy} {input : AllocationInput} {tiers : TierLedger}
  {caps : CapTracker} {requested available : Units} {a b : Funds}
  {plan larger : AllocationPlan}

/-- Who may spend something of a payment may spend as much of one that is worth
more. -/
theorem spendable_mono {requested' : Units} (hle : requested ≤ requested')
    (h : spendable caps input requested = .ok available) :
    ∃ available', spendable caps input requested' = .ok available' ∧ available ≤ available' := by
  obtain ⟨haccredited, hnon⟩ := spendable_ok h
  cases hclass : input.investorClass with
  | accredited => exact ⟨requested', spendable_accredited hclass, haccredited hclass ▸ hle⟩
  | nonAccredited =>
      obtain ⟨hroom, havailable⟩ := hnon hclass
      refine ⟨_, (spendable_nonAccredited hclass).trans (if_pos hroom), ?_⟩
      rw [Quantity.le_iff, havailable, Quantity.val_least, Quantity.val_subClamped]
      exact min_le_min_right _ hle

/-- Unless its worth leaves the range of amounts, a larger payment gets to the
walk with at least as much to spend. -/
theorem GetsToWalk.of_le (hab : a ≤ b) {worth : Units} (hworth : input.rate.toUnits b = some worth)
    (h : GetsToWalk policy { input with amount := a } tiers caps requested available) :
    ∃ available', GetsToWalk policy { input with amount := b } tiers caps worth available' ∧
      available ≤ available' := by
  have hle : requested ≤ worth := Rate.toUnits_mono hab h.worth hworth
  obtain ⟨available', hspendable, havailable⟩ := spendable_mono hle h.spendable
  exact ⟨available', {
    amount := h.amount.trans_le hab
    usable := h.usable
    worth := hworth
    minimum := fun hfirst => Nat.le_trans (h.minimum hfirst) hle
    notSoldOut := h.notSoldOut
    spendable := hspendable }, havailable⟩

/-! ## from the walk on -/

/-- A walk with at least as much to spend as a plan had buys at least as much. -/
theorem le_tokensIn_of_walk (ht : tiers.Built)
    (h : allocate policy input tiers caps = .ok plan) (hle : plan.availableUnits ≤ available)
    {basket : Basket} (hwalk : walk (policy.isDiscountEligible input.currency) 0 tiers.tiers
      ⟨available, []⟩ = .ok basket) :
    plan.result.tokensAllocated.val ≤ tokensIn basket.fills := by
  obtain ⟨fills, hfills, hgreedy⟩ := walk_greedy ht.isPriced hwalk
  obtain ⟨⟨hoffered, hcovered⟩, -⟩ := allocate_isGreatest ht h
  rw [hfills, List.nil_append]
  exact (hgreedy.isGreatest (ht.isOpen _)).2 ⟨hoffered, Nat.le_trans hcovered hle⟩

/-- A larger payment leaves at least as much to spend. -/
theorem availableUnits_mono (hab : a ≤ b)
    (h : allocate policy { input with amount := a } tiers caps = .ok plan)
    (h' : allocate policy { input with amount := b } tiers caps = .ok larger) :
    plan.availableUnits ≤ larger.availableUnits := by
  have hstart' := (made_of_allocate h').start
  obtain ⟨available, hstart, hle⟩ := (made_of_allocate h).start.of_le hab hstart'.worth
  have hsame : available = larger.availableUnits :=
    Except.ok.inj (hstart.spendable.symm.trans hstart'.spendable)
  exact hsame ▸ hle

/-- Of two plans the larger one has at least as much of everything. -/
theorem allocate_mono (ht : tiers.Built) (hab : a ≤ b)
    (h : allocate policy { input with amount := a } tiers caps = .ok plan)
    (h' : allocate policy { input with amount := b } tiers caps = .ok larger) :
    plan.result.tokensAllocated ≤ larger.result.tokensAllocated ∧
      plan.result.unitsConsumed ≤ larger.result.unitsConsumed ∧
      plan.result.fundsConsumed ≤ larger.result.fundsConsumed := by
  obtain ⟨left, hwalk⟩ := (made_of_allocate h').walked
  have htokens : plan.result.tokensAllocated ≤ larger.result.tokensAllocated := by
    rw [Quantity.le_iff, (allocate_adds h').tokens]
    exact le_tokensIn_of_walk ht h (availableUnits_mono hab h h') hwalk
  have hunits : plan.result.unitsConsumed ≤ larger.result.unitsConsumed := by
    rw [Quantity.le_iff, unitsConsumed_of_allocate ht h, unitsConsumed_of_allocate ht h']
    exact prefixCost_mono (ht.isOpen _) htokens
  have hkept := toFunds_of_allocate ht h
  have hkept' := toFunds_of_allocate ht h'
  exact ⟨htokens, hunits, Rate.toFunds_mono hunits hkept hkept'⟩

/-- Where a payment has a plan, a larger one is refused for an overflow only. -/
theorem overflow_of_larger (ht : tiers.Built) (hab : a ≤ b)
    (h : allocate policy { input with amount := a } tiers caps = .ok plan) {e : AllocationError}
    (h' : allocate policy { input with amount := b } tiers caps = .error e) :
    ∃ stage, e = .overflow stage := by
  have hplan := made_of_allocate h
  cases hworth : input.rate.toUnits b with
  | none =>
      have hover := (Rate.toUnits_eq_none_iff hplan.start.usable).1 hworth
      have hworthless : allocate policy { input with amount := b } tiers caps =
          .error (.overflow .fundsToUnits) :=
        allocate_overflow_worth (hplan.start.amount.trans_le hab) hplan.start.usable hover
      exact ⟨_, Except.error.inj (h'.symm.trans hworthless)⟩
  | some worth =>
  obtain ⟨available, hstart, havailable⟩ := hplan.start.of_le hab hworth
  rw [hstart.allocate_eq] at h'
  cases hwalk : walk (policy.isDiscountEligible input.currency) 0 tiers.tiers ⟨available, []⟩ with
  | error e' =>
      rw [hwalk] at h'
      cases h'
      exact ⟨_, ((walk_error_iff ht.isPriced).1 hwalk).1⟩
  | ok basket =>
      rw [hwalk] at h'
      have hbought := le_tokensIn_of_walk ht h havailable hwalk
      cases fallsShort_of_planOf h' with
      | nothing hnone => exact absurd hplan.tokens_pos (by omega)
      | slippage hleast htokens hless =>
          have hmin := hplan.least _ hleast
          exact absurd (Nat.le_trans hmin hbought) (Nat.not_le.2 (htokens ▸ hless))
      | _ => exact ⟨_, rfl⟩

/-- **Paying more never buys less**: the larger payment has a plan with at least
as many tokens, for at least as many units and at least as much of the currency,
unless it overflows. -/
theorem allocate_larger (ht : tiers.Built) (hab : a ≤ b)
    (h : allocate policy { input with amount := a } tiers caps = .ok plan) :
    (∃ larger, allocate policy { input with amount := b } tiers caps = .ok larger ∧
      plan.result.tokensAllocated ≤ larger.result.tokensAllocated ∧
      plan.result.unitsConsumed ≤ larger.result.unitsConsumed ∧
      plan.result.fundsConsumed ≤ larger.result.fundsConsumed) ∨
    ∃ stage, allocate policy { input with amount := b } tiers caps = .error (.overflow stage) := by
  cases h' : allocate policy { input with amount := b } tiers caps with
  | ok larger => exact .inl ⟨larger, rfl, allocate_mono ht hab h h'⟩
  | error e =>
      obtain ⟨stage, rfl⟩ := overflow_of_larger ht hab h h'
      exact .inr ⟨stage, rfl⟩

end Plans

/-- Seven units buy five tokens, twenty buy eleven; if a tier stands behind that
cannot be paid for, twenty units overflow there. -/
theorem allocate_larger_seven_twenty :
    (∃ plan larger, allocate ⟨.one, some (.ofText "USD")⟩
        { Sample.payment with amount := ⟨7, by decide⟩ } Sample.tiers (.withLimit .zero) = .ok plan ∧
      allocate ⟨.one, some (.ofText "USD")⟩ { Sample.payment with amount := ⟨20, by decide⟩ }
        Sample.tiers (.withLimit .zero) = .ok larger ∧
      (plan.result.tokensAllocated.val, larger.result.tokensAllocated.val) = (5, 11) ∧
      plan.result.tokensAllocated ≤ larger.result.tokensAllocated ∧
      plan.result.unitsConsumed ≤ larger.result.unitsConsumed ∧
      plan.result.fundsConsumed ≤ larger.result.fundsConsumed) ∧
    allocate ⟨.one, none⟩ Sample.payment Sample.vastTiers (.withLimit .zero) =
      .error (.overflow .tierCost) := by
  obtain ⟨plan, hplan, hseven⟩ : ∃ plan, allocate ⟨.one, some (.ofText "USD")⟩
      { Sample.payment with amount := ⟨7, by decide⟩ } Sample.tiers (.withLimit .zero) =
        .ok plan ∧ plan.result.tokensAllocated.val = 5 := ⟨_, rfl, rfl⟩
  have hle : (⟨7, by decide⟩ : Funds) ≤ ⟨20, by decide⟩ := by decide
  obtain ⟨larger, hlarger, hmore⟩ | ⟨stage, hover⟩ :=
    allocate_larger Sample.built_tiers hle hplan
  · refine ⟨⟨plan, larger, hplan, hlarger, ?_, hmore⟩, rfl⟩
    cases hplan
    cases hlarger
    rfl
  · contradiction

end TokenSale
