import TokenSale.Proofs.PrefixCost

/-!
# TokenSale.Proofs.Overflow

Where the arithmetic of planning leaves the range of amounts.  Two products
are not bounded by anything: a payment times its rate, and all that is left of
a slot times its price.  Every other product and every sum of a plan stays
below one that is known to fit, so it never overflows.

* `Take.of_error_iff` — buying of one slot;
* `Reaches`, `Basket.buy_error_iff` — the slot at which a walk overflows;
* `planOf_ne_overflow` — what was bought becomes a plan without overflow;
* `allocate_overflow` — the overflows of planning, all of them.
-/

namespace TokenSale

/-! ## one slot -/

section Take

variable {capacity : Tokens} {price : Price}

/-- Buying goes through whenever all that is there has a cost. -/
theorem Take.exists_of (budget : Units) (hprice : price.isValid = true)
    (hfits : capacity.val * price.units.val < Quantity.limit) :
    ∃ x, Take.of budget capacity price = .ok x := by
  obtain ⟨hunits, htokens⟩ := Price.isValid_iff.1 hprice
  obtain ⟨full, hfull⟩ : ∃ full, price.costOf capacity = some full :=
    Option.ne_none_iff_exists'.1 (mt (Price.costOf_eq_none_iff htokens).1 (Nat.not_le.2 hfits))
  by_cases hle : full ≤ budget
  · exact ⟨⟨capacity, full, false⟩, by simp [Take.of, hfull, hle]⟩
  -- a budget that is short of the whole cost is too small to overflow
  have hshort : budget.val * price.tokens.val < capacity.val * price.units.val := by
    have hcost : ¬ price.exactCost capacity.val ≤ budget.val := (Price.costOf_ok hfull).2 ▸ hle
    rwa [Price.exactCost_le_iff htokens, Nat.not_le, Nat.mul_comm price.tokens.val] at hcost
  obtain ⟨tokens, hmost⟩ : ∃ tokens, price.tokensFor budget = some tokens :=
    Option.ne_none_iff_exists'.1 <| mt (Price.tokensFor_eq_none_iff hunits).1 <|
      Nat.not_le.2 (hshort.trans hfits)
  have hbought : tokens.val * price.units.val ≤ budget.val * price.tokens.val := by
    rw [(Price.tokensFor_ok hmost).2]
    exact Nat.div_mul_le_self _ _
  obtain ⟨cost, hcost⟩ : ∃ cost, price.costOf tokens = some cost :=
    Option.ne_none_iff_exists'.1 <| mt (Price.costOf_eq_none_iff htokens).1 <|
      Nat.not_le.2 ((hbought.trans_lt hshort).trans hfits)
  exact ⟨⟨tokens, cost, true⟩, by simp [Take.of, hfull, hle, hmost, hcost]⟩

/-- Buying of a slot only ever fails for the cost of all that is there. -/
theorem Take.of_error_iff {budget : Units} {e : AllocationError} (hprice : price.isValid = true) :
    Take.of budget capacity price = .error e ↔
      e = .overflow .tierCost ∧ Quantity.limit ≤ capacity.val * price.units.val := by
  obtain hfits | hover := Nat.lt_or_ge (capacity.val * price.units.val) Quantity.limit
  · obtain ⟨x, hx⟩ := Take.exists_of budget hprice hfits
    simp [hx, hfits]
  · have hnone := (Price.costOf_eq_none_iff (Price.isValid_iff.1 hprice).2).2 hover
    simp [Take.of, hnone, hover, eq_comm]

end Take

/-! ## a walk -/

/-- All that is left of the slot, times its price, leaves the range of amounts. -/
def Slot.CostOverflows (s : Slot) : Prop := Quantity.limit ≤ s.capacity.val * s.price.units.val

/-- A walk over slots that starts with a budget comes to a slot with `left` of
it: every slot before that one was bought whole. -/
inductive Reaches (s : Slot) (left : Nat) : List Slot → Nat → Prop
  | here {rest : List Slot} : Reaches s left (s :: rest) left
  | next {before : Slot} {rest : List Slot} {budget : Nat} {cost : Units}
      (hcost : before.price.costOf before.capacity = some cost) (hle : cost.val ≤ budget)
      (h : Reaches s left rest (budget - cost.val)) : Reaches s left (before :: rest) budget

namespace Reaches

variable {s before : Slot} {left budget : Nat} {rest slots : List Slot}

theorem le (h : Reaches s left slots budget) : left ≤ budget := by
  induction h with
  | here => exact le_rfl
  | next hcost hle h ih => exact ih.trans (Nat.sub_le _ _)

/-- Past a slot that the budget buys whole. -/
theorem cons_iff_of_le {cost : Units} (hcost : before.price.costOf before.capacity = some cost)
    (hle : cost.val ≤ budget) : Reaches s left (before :: rest) budget ↔
      s = before ∧ left = budget ∨ Reaches s left rest (budget - cost.val) := by
  constructor
  · rintro (_ | ⟨hcost', -, h⟩)
    · exact .inl ⟨rfl, rfl⟩
    · rw [hcost, Option.some.injEq] at hcost'
      exact .inr (hcost' ▸ h)
  · rintro (⟨rfl, rfl⟩ | h)
    · exact .here
    · exact .next hcost hle h

/-- Nothing is reached past a slot that the budget does not buy whole. -/
theorem cons_iff_of_not_le
    (hshort : ∀ cost, before.price.costOf before.capacity = some cost → ¬ cost.val ≤ budget) :
    Reaches s left (before :: rest) budget ↔ s = before ∧ left = budget := by
  constructor
  · rintro (_ | ⟨hcost, hle, -⟩)
    · exact ⟨rfl, rfl⟩
    · exact absurd hle (hshort _ hcost)
  · rintro ⟨rfl, rfl⟩
    exact .here

end Reaches

/-- A walk that starts with a budget comes, with some of it left, to a slot whose
cost overflows. -/
def ReachesOverflow (slots : List Slot) (budget : Nat) : Prop :=
  ∃ s left, Reaches s left slots budget ∧ 0 < left ∧ s.CostOverflows

/-- **A walk over slots fails just where it reaches a cost that overflows.** -/
theorem Basket.buy_error_iff {slots : List Slot} {b : Basket} {e : AllocationError}
    (hslots : ∀ s ∈ slots, s.IsOpen) :
    b.buy slots = .error e ↔ e = .overflow .tierCost ∧ ReachesOverflow slots b.budget.val := by
  induction slots generalizing b with
  | nil =>
      refine iff_of_false (by simp [buy]) ?_
      rintro ⟨-, s, left, h, -⟩
      cases h
  | cons s rest ih =>
      obtain ⟨hs, hrest⟩ := List.forall_mem_cons.1 hslots
      unfold ReachesOverflow
      rw [buy]
      split
      next hzero =>
        refine iff_of_false (by simp) ?_
        rintro ⟨-, s', left, h, hleft, -⟩
        exact absurd (hleft.trans_le h.le) (by simpa using hzero)
      next hb =>
      rw [Bool.not_eq_true, Quantity.isZero_eq_false_iff] at hb
      split
      next e' hx =>
        obtain ⟨rfl, hover⟩ := (Take.of_error_iff hs.2).1 hx
        rw [Except.error.injEq, eq_comm]
        exact (and_iff_left ⟨s, b.budget.val, .here, hb, hover⟩).symm
      next x hx =>
      have hfits : ¬ s.CostOverflows := fun hover => by
        rw [(Take.of_error_iff hs.2).2 ⟨rfl, hover⟩] at hx
        contradiction
      simp only
      obtain ⟨hcost, hle, ⟨hsplit, htokens⟩ | ⟨hsplit, hshort, -⟩⟩ := Take.of_ok hx
      · -- bought whole: the walk goes on with what is left
        rw [htokens] at hcost
        rw [if_neg (by simp [hsplit]), ih hrest]
        refine and_congr_right fun _ => exists_congr fun s' => exists_congr fun left => ?_
        rw [Reaches.cons_iff_of_le hcost hle, or_and_right]
        refine (or_iff_right ?_).symm
        rintro ⟨⟨rfl, -⟩, -, hover⟩
        exact hfits hover
      · -- split: the walk ends here
        rw [if_pos hsplit]
        refine iff_of_false (by simp) ?_
        rintro ⟨-, s', left, h, -, hover⟩
        rw [Reaches.cons_iff_of_not_le fun cost hwhole =>
          (Price.costOf_ok hwhole).2 ▸ Nat.not_le.2 hshort] at h
        exact hfits (h.1 ▸ hover)

/-! ## plans -/

section Plans

variable {policy : AllocationPolicy} {input : AllocationInput} {tiers : TierLedger}
  {caps : CapTracker} {requested available : Units}

/-- A walk over the tiers fails exactly if it reaches a cost that overflows. -/
theorem walk_error_iff {index : Nat} {b : Basket} {e : AllocationError} {eligible : Bool}
    {l : List Tier} (hl : ∀ t ∈ l, t.spec.IsPriced) :
    walk eligible index l b = .error e ↔
      e = .overflow .tierCost ∧ ReachesOverflow (slotsFrom eligible index l) b.budget.val := by
  rw [walk_eq_buy, Basket.buy_error_iff fun _ hs => isOpen_of_mem_slotsFrom hl hs]

/-- What a walk has bought is counted and turned back without overflow: the
tokens are on offer, the units may be spent, and they were worth the payment. -/
theorem planOf_ne_overflow (ht : tiers.Built) {basket : Basket}
    (hstart : GetsToWalk policy input tiers caps requested available)
    (hwalk : walk (policy.isDiscountEligible input.currency) 0 tiers.tiers ⟨available, []⟩ =
      .ok basket) (stage : AllocationStage) :
    planOf input requested available basket.fills ≠ .error (.overflow stage) := by
  obtain ⟨fills, hfills, hgreedy⟩ := walk_greedy ht.isPriced hwalk
  rw [hfills, List.nil_append]
  have hopen := ht.isOpen (policy.isDiscountEligible input.currency)
  obtain ⟨hoffered, hcovered⟩ := (hgreedy.isGreatest hopen).1
  rw [← hgreedy.spentOn_eq hopen] at hcovered
  have hbought : tokensIn fills < Quantity.limit := hoffered.trans_lt (ht.tokensOn_lt _)
  have hspent : spentOn fills < Quantity.limit := hcovered.trans_lt available.val_lt
  intro h
  cases fallsShort_of_planOf h with
  | tokenTotal hover => exact absurd hbought (Nat.not_lt.2 hover)
  | unitTotal hover => exact absurd hspent (Nat.not_lt.2 hover)
  | unitsToFunds hunits hnone =>
      have hworth := hunits.trans_le (hcovered.trans (spendable_le hstart.spendable))
      obtain ⟨worth, hsome, -⟩ := Rate.exists_toFunds hstart.usable hstart.worth hworth
      rw [hnone] at hsome
      contradiction

/-- A payment whose worth overflows is refused for that. -/
theorem allocate_overflow_worth (hamount : 0 < input.amount.val)
    (hrate : input.rate.isUsable = true)
    (hover : Quantity.limit ≤ input.amount.val * input.rate.numerator.val) :
    allocate policy input tiers caps = .error (.overflow .fundsToUnits) := by
  have hnone := (Rate.toUnits_eq_none_iff hrate).2 hover
  simp [allocate, Quantity.isZero_eq_false_iff.2 hamount, hrate, hnone]

/-- A request that gets to the tiers is refused if it reaches a cost that overflows.
-/
theorem GetsToWalk.allocate_overflow (ht : tiers.Built)
    (h : GetsToWalk policy input tiers caps requested available)
    (hover : ReachesOverflow (tiers.slots (policy.isDiscountEligible input.currency))
      available.val) : allocate policy input tiers caps = .error (.overflow .tierCost) := by
  have hwalk : walk (policy.isDiscountEligible input.currency) 0 tiers.tiers ⟨available, []⟩ =
      .error (.overflow .tierCost) := (walk_error_iff ht.isPriced).2 ⟨rfl, hover⟩
  rw [h.allocate_eq, hwalk]
  rfl

/-- An overflow comes before the walk or on it. -/
theorem overflow_of_allocate (ht : tiers.Built) {stage : AllocationStage}
    (h : allocate policy input tiers caps = .error (.overflow stage)) :
    stage = .fundsToUnits ∧ 0 < input.amount.val ∧ input.rate.isUsable = true ∧
        Quantity.limit ≤ input.amount.val * input.rate.numerator.val ∨
      stage = .tierCost ∧ ∃ requested available,
        GetsToWalk policy input tiers caps requested available ∧
        ReachesOverflow (tiers.slots (policy.isDiscountEligible input.currency))
          available.val := by
  obtain ⟨e, haway, he⟩ | ⟨requested, available, hstart⟩ := allocate_cases policy input tiers caps
  · rw [he, Except.error.injEq] at h
    subst h
    cases haway with
    | worth hamount hrate hworth =>
        exact .inl ⟨rfl, hamount, hrate, (Rate.toUnits_eq_none_iff hrate).1 hworth⟩
    | limit hrequested hlimit =>
        obtain ⟨limit, invested, hexceeded⟩ := spendable_error hlimit
        contradiction
  · rw [hstart.allocate_eq] at h
    cases hwalk : walk (policy.isDiscountEligible input.currency) 0 tiers.tiers
      ⟨available, []⟩ with
    | error e =>
        rw [hwalk] at h
        cases h
        obtain ⟨hcost, hover⟩ := (walk_error_iff ht.isPriced).1 hwalk
        cases hcost
        exact .inr ⟨rfl, requested, available, hstart, hover⟩
    | ok basket =>
        rw [hwalk] at h
        exact absurd h (planOf_ne_overflow ht hstart hwalk stage)

/-- **Planning overflows at two places only, and just where a product leaves the
range of amounts**: the payment times its rate, or what is left of a slot, times
its price, when the walk comes to that slot with something to spend.  And what a
plan keeps and gives back always adds up to the payment. -/
theorem allocate_overflow_iff (ht : tiers.Built) :
    (∀ stage, allocate policy input tiers caps = .error (.overflow stage) ↔
      stage = .fundsToUnits ∧ 0 < input.amount.val ∧ input.rate.isUsable = true ∧
          Quantity.limit ≤ input.amount.val * input.rate.numerator.val ∨
        stage = .tierCost ∧ ∃ requested available,
          GetsToWalk policy input tiers caps requested available ∧
          ReachesOverflow (tiers.slots (policy.isDiscountEligible input.currency))
            available.val) ∧
      ∀ plan, allocate policy input tiers caps = .ok plan →
        plan.result.fundsConsumed.add? plan.result.fundsRefunded = some input.amount := by
  refine ⟨fun stage => ⟨overflow_of_allocate ht, ?_⟩, fun plan hplan => ?_⟩
  · rintro (⟨rfl, hamount, hrate, hover⟩ | ⟨rfl, requested, available, hstart, hover⟩)
    · exact allocate_overflow_worth hamount hrate hover
    · exact hstart.allocate_overflow ht hover
  · exact Quantity.add?_eq_some_iff.2 (allocate_adds hplan).funds.symm

end Plans

/-- A tier of fifteen tokens, and behind it one of more tokens than can be paid
for. -/
def Sample.vastTiers : TierLedger :=
  ⟨[.fresh (.regular ⟨.one, .one⟩ ⟨15, by decide⟩),
    .fresh (.regular ⟨⟨16, by decide⟩, .one⟩ ⟨Nat.pow 2 127, by decide⟩)]⟩

/-- Twenty units reach the second of these tiers and overflow there, ten do not
reach it; half the range of amounts overflows before the walk if a base unit is
worth two. -/
theorem allocate_overflow_iff_vast :
    (∃ requested available,
      GetsToWalk ⟨.one, none⟩ Sample.payment Sample.vastTiers (.withLimit .zero) requested
        available ∧ ReachesOverflow (Sample.vastTiers.slots false) available.val) ∧
    (¬ ∃ requested available,
      GetsToWalk ⟨.one, none⟩ { Sample.payment with amount := ⟨10, by decide⟩ } Sample.vastTiers
        (.withLimit .zero) requested available ∧
      ReachesOverflow (Sample.vastTiers.slots false) available.val) ∧
    allocate ⟨.one, none⟩ { Sample.payment with
        amount := ⟨Nat.pow 2 127, by decide⟩
        rate := ⟨⟨2, by decide⟩, .one, default⟩ } Sample.vastTiers (.withLimit .zero) =
      .error (.overflow .fundsToUnits) := by
  have hbuilt : Sample.vastTiers.Built :=
    .ofSpecs (show TierLedger.ofSpecs Sample.vastTiers.specs = .ok Sample.vastTiers by rfl)
  refine ⟨?_, fun hreached => ?_, ?_⟩
  · have hcost : allocate ⟨.one, none⟩ Sample.payment Sample.vastTiers (.withLimit .zero) =
        .error (.overflow .tierCost) := by rfl
    obtain ⟨hworth, -⟩ | ⟨-, hreached⟩ := ((allocate_overflow_iff hbuilt).1 _).1 hcost
    · contradiction
    · exact hreached
  · have hcost := ((allocate_overflow_iff hbuilt).1 .tierCost).2 (.inr ⟨rfl, hreached⟩)
    contradiction
  · exact ((allocate_overflow_iff hbuilt).1 _).2 (.inl ⟨rfl, by decide, by decide, by decide⟩)

end TokenSale
