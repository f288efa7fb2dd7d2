import TokenSale.Allocation.Walk

/-!
# TokenSale.Proofs.Planning

How a purchase comes by a plan, or why it does not.  It is turned away before
the tiers are walked, or it gets to the walk with an amount to spend; and what
the walk has bought becomes the plan, or is not enough for one.

* `spendable_ok`, `spendable_error` — what may be spent of a payment;
* `TurnedAway`, `GetsToWalk` — what decides before the walk;
* `allocate_cases` — one or the other;
* `made_of_allocate` — what a plan went through and is made of.
-/

namespace TokenSale

/-! ## what may be spent -/

/-- Whoever is not accredited may spend what is left below their limit, if
anything is. -/
theorem CapTracker.headroom_nonAccredited (c : CapTracker) (investor : InvestorId) :
    c.headroom investor .nonAccredited =
      if c.currentSpend investor < c.effectiveLimit investor then
        .ok (some ((c.effectiveLimit investor).subClamped (c.currentSpend investor)))
      else .error (.capExceeded investor (c.effectiveLimit investor) (c.currentSpend investor)
        .zero) := by
  simp only [headroom]
  by_cases hlt : c.currentSpend investor < c.effectiveLimit investor
  · have hroom : (c.effectiveLimit investor).sub? (c.currentSpend investor) =
        some ((c.effectiveLimit investor).subClamped (c.currentSpend investor)) :=
      if_pos (Nat.le_of_lt hlt)
    have hpos : ((c.effectiveLimit investor).subClamped (c.currentSpend investor)).isZero = false :=
      Quantity.isZero_eq_false_iff.2 (Nat.sub_pos_of_lt hlt)
    simp only [hroom, hpos, hlt, Bool.false_eq_true, if_false, if_true]
  · rw [if_neg hlt]
    split
    next room hroom =>
      have hzero : room.isZero = true := by
        rw [Quantity.isZero_iff, (Quantity.sub?_eq_some_iff.1 hroom).2]
        exact Nat.sub_eq_zero_of_le (Nat.le_of_not_lt hlt)
      rw [if_pos hzero]
    next => rfl

section Spendable

variable {caps : CapTracker} {input : AllocationInput} {requested available : Units}

theorem spendable_accredited (h : input.investorClass = .accredited) :
    spendable caps input requested = .ok requested := by
  rw [spendable, h]
  rfl

/-- Others may spend up to what is left of their limit. -/
theorem spendable_nonAccredited (h : input.investorClass = .nonAccredited) :
    spendable caps input requested =
      if caps.currentSpend input.investor < caps.effectiveLimit input.investor then
        .ok (requested.least ((caps.effectiveLimit input.investor).subClamped
          (caps.currentSpend input.investor)))
      else .error (.capExceeded input.investor (caps.effectiveLimit input.investor)
        (caps.currentSpend input.investor)) := by
  rw [spendable, h, CapTracker.headroom_nonAccredited]
  by_cases hless : caps.currentSpend input.investor < caps.effectiveLimit input.investor
  · simp only [if_pos hless]
  · simp only [if_neg hless]

/-- Somebody accredited may spend all that was requested, anybody else as much
of it as their limit leaves. -/
theorem spendable_ok (h : spendable caps input requested = .ok available) :
    (input.investorClass = .accredited → available = requested) ∧
      (input.investorClass = .nonAccredited →
        (caps.currentSpend input.investor).val < (caps.effectiveLimit input.investor).val ∧
        available.val = min requested.val ((caps.effectiveLimit input.investor).val -
          (caps.currentSpend input.investor).val)) := by
  refine ⟨fun hclass => ?_, fun hclass => ?_⟩
  · rw [spendable_accredited hclass, Except.ok.injEq] at h
    exact h.symm
  · rw [spendable_nonAccredited hclass] at h
    split at h
    next hless =>
      simp only [Except.ok.injEq] at h
      rw [← h, Quantity.val_least, Quantity.val_subClamped]
      exact ⟨hless, rfl⟩
    next => contradiction

/-- Only a limit stands against spending anything. -/
theorem spendable_error {e : AllocationError} (h : spendable caps input requested = .error e) :
    ∃ limit invested, e = .capExceeded input.investor limit invested := by
  cases hclass : input.investorClass with
  | accredited =>
      rw [spendable_accredited hclass] at h
      contradiction
  | nonAccredited =>
      rw [spendable_nonAccredited hclass] at h
      split at h
      next => contradiction
      next =>
        simp only [Except.error.injEq] at h
        exact ⟨_, _, h.symm⟩

/-- Nobody may spend more than was requested. -/
theorem spendable_le (h : spendable caps input requested = .ok available) :
    available.val ≤ requested.val := by
  obtain ⟨haccredited, hnon⟩ := spendable_ok h
  cases hclass : input.investorClass with
  | accredited => exact Nat.le_of_eq (congrArg Quantity.val (haccredited hclass))
  | nonAccredited =>
      rw [(hnon hclass).2]
      exact Nat.min_le_left _ _

end Spendable

/-! ## before the walk -/

section Planning

variable {policy : AllocationPolicy} {input : AllocationInput} {tiers : TierLedger}
  {caps : CapTracker} {requested available : Units}

/-- A purchase gets to the walk: it asks for something at a usable rate, what it
asks for is worth `requested` units, it is no first purchase below the minimum,
something is left, and `available` units may be spent. -/
structure GetsToWalk (policy : AllocationPolicy) (input : AllocationInput) (tiers : TierLedger)
    (caps : CapTracker) (requested available : Units) : Prop where
  amount : 0 < input.amount.val
  usable : input.rate.isUsable = true
  worth : input.rate.toUnits input.amount = some requested
  minimum : caps.hasInvested input.investor = false → policy.minimumInvestment ≤ requested
  notSoldOut : tiers.isSoldOut = false
  spendable : spendable caps input requested = .ok available

/-- What a purchase is turned away for before the walk. -/
inductive TurnedAway (policy : AllocationPolicy) (input : AllocationInput) (tiers : TierLedger)
    (caps : CapTracker) : AllocationError → Prop
  | amount (h : input.amount.val = 0) : TurnedAway policy input tiers caps .invalidAmount
  | rate (h : input.rate.isUsable = false) :
    TurnedAway policy input tiers caps (.rateUnavailable input.currency)
  | worth (hamount : 0 < input.amount.val) (hrate : input.rate.isUsable = true)
      (h : input.rate.toUnits input.amount = none) :
    TurnedAway policy input tiers caps (.overflow .fundsToUnits)
  | minimum {requested : Units} (hrequested : input.rate.toUnits input.amount = some requested)
      (h : requested < policy.minimumInvestment) :
    TurnedAway policy input tiers caps (.belowMinimum requested policy.minimumInvestment)
  | soldOut (h : tiers.isSoldOut = true) : TurnedAway policy input tiers caps .soldOut
  | limit {requested : Units} {e : AllocationError}
      (hrequested : input.rate.toUnits input.amount = some requested)
      (h : spendable caps input requested = .error e) : TurnedAway policy input tiers caps e

/-- What comes of a purchase that gets to the walk. -/
theorem GetsToWalk.allocate_eq (h : GetsToWalk policy input tiers caps requested available) :
    allocate policy input tiers caps =
      (walk (policy.isDiscountEligible input.currency) 0 tiers.tiers ⟨available, []⟩).bind
        fun basket => planOf input requested available basket.fills := by
  have hamount : input.amount.isZero = false := Quantity.isZero_eq_false_iff.2 h.amount
  have hminimum : (!caps.hasInvested input.investor &&
      decide (requested < policy.minimumInvestment)) = false := by
    cases hfirst : caps.hasInvested input.investor with
    | true => rfl
    | false => simpa [Quantity.lt_iff, Quantity.le_iff] using h.minimum hfirst
  simp only [allocate, hamount, h.usable, h.worth, hminimum, h.notSoldOut, h.spendable,
    Bool.not_true, Bool.false_eq_true, if_false]
  cases walk (policy.isDiscountEligible input.currency) 0 tiers.tiers ⟨available, []⟩ <;> rfl

/-- **A purchase is turned away, or it gets to the walk.** -/
theorem allocate_cases (policy : AllocationPolicy) (input : AllocationInput) (tiers : TierLedger)
    (caps : CapTracker) :
    (∃ e, TurnedAway policy input tiers caps e ∧ allocate policy input tiers caps = .error e) ∨
      ∃ requested available, GetsToWalk policy input tiers caps requested available := by
  unfold allocate
  split
  next hamount => exact .inl ⟨_, .amount (Quantity.isZero_iff.1 hamount), rfl⟩
  next hamount =>
  rw [Bool.not_eq_true, Quantity.isZero_eq_false_iff] at hamount
  split
  next hrate => exact .inl ⟨_, .rate (by simpa using hrate), rfl⟩
  next hrate =>
  rw [Bool.not_eq_true, Bool.not_eq_false'] at hrate
  split
  next hworth => exact .inl ⟨_, .worth hamount hrate hworth, rfl⟩
  next requested hrequested =>
  split
  next hminimum =>
    simp only [Bool.and_eq_true, decide_eq_true_eq] at hminimum
    exact .inl ⟨_, .minimum hrequested hminimum.2, rfl⟩
  next hminimum =>
  split
  next hsoldOut => exact .inl ⟨_, .soldOut hsoldOut, rfl⟩
  next hsoldOut =>
  split
  next e hlimit => exact .inl ⟨e, .limit hrequested hlimit, rfl⟩
  next available havailable =>
  refine .inr ⟨requested, available, hamount, hrate, hrequested, fun hfirst => ?_,
    by simpa using hsoldOut, havailable⟩
  simpa [hfirst, Quantity.lt_iff, Quantity.le_iff] using hminimum

/-! ## after the walk -/

/-- What a plan went through, and what it is made of: the sums of its fills, and
the payment turned back from units, as far as it goes. -/
structure AllocationPlan.Made (policy : AllocationPolicy) (input : AllocationInput)
    (tiers : TierLedger) (caps : CapTracker) (plan : AllocationPlan) : Prop where
  start : GetsToWalk policy input tiers caps plan.requestedUnits plan.availableUnits
  walked : ∃ left, walk (policy.isDiscountEligible input.currency) 0 tiers.tiers
    ⟨plan.availableUnits, []⟩ = .ok ⟨left, plan.fills⟩
  investor : plan.investor = input.investor
  investorClass : plan.investorClass = input.investorClass
  currency : plan.currency = input.currency
  amount : plan.amount = input.amount
  rate : plan.rate = input.rate
  totals : fillTotals plan.fills = .ok (plan.result.tokensAllocated, plan.result.unitsConsumed)
  tokens_pos : 0 < plan.result.tokensAllocated.val
  least : ∀ least, input.minTokens = some least → least ≤ plan.result.tokensAllocated
  consumed : ∃ worth, input.rate.toFunds plan.result.unitsConsumed = some worth ∧
    plan.result.fundsConsumed = worth.least input.amount
  refunded : plan.result.fundsRefunded = input.amount.subClamped plan.result.fundsConsumed

/-- What the walk has bought becomes the plan. -/
theorem made_of_planOf {basket : Basket} {plan : AllocationPlan}
    (hstart : GetsToWalk policy input tiers caps requested available)
    (hwalk : walk (policy.isDiscountEligible input.currency) 0 tiers.tiers ⟨available, []⟩ =
      .ok basket)
    (h : planOf input requested available basket.fills = .ok plan) :
    plan.Made policy input tiers caps := by
  unfold planOf at h
  split at h
  · contradiction
  next tokens units htotals =>
  split at h
  · contradiction
  next hpos =>
  split at h
  · contradiction
  next hleast =>
  split at h
  · contradiction
  next worth hworth =>
  cases h
  refine ⟨hstart, ⟨basket.budget, hwalk⟩, rfl, rfl, rfl, rfl, rfl, htotals,
    Nat.pos_of_ne_zero (by simpa using hpos), fun least hmin => ?_, ⟨worth, hworth, rfl⟩, rfl⟩
  rw [hmin, Option.filter_some] at hleast
  simpa [Quantity.lt_iff, Quantity.le_iff] using hleast

/-- **A plan was made by a walk** that the purchase got to. -/
theorem made_of_allocate {plan : AllocationPlan} (h : allocate policy input tiers caps = .ok plan) :
    plan.Made policy input tiers caps := by
  obtain ⟨e, -, he⟩ | ⟨requested, available, hstart⟩ := allocate_cases policy input tiers caps
  · rw [he] at h
    contradiction
  rw [hstart.allocate_eq] at h
  cases hwalk : walk (policy.isDiscountEligible input.currency) 0 tiers.tiers ⟨available, []⟩ with
  | error e =>
      rw [hwalk] at h
      contradiction
  | ok basket =>
      rw [hwalk] at h
      exact made_of_planOf hstart hwalk h

end Planning

end TokenSale
