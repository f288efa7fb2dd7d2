import TokenSale.Proofs.PrefixCost

/-!
# TokenSale.Proofs.PlanAccounting

What a plan charges.  A payment is rounded four times on its way: down to
units, down to tokens, up to what these cost, and up to the payment that is
kept for them.  Nobody loses a whole base unit by it: the buyer pays the least
that is worth what was bought, and the rest of the payment goes back.

* `TierSpec.priceIn`, `exists_tier_of_mem_slotsFrom` — what a slot is a part of;
* `consumed_le_available` — a plan stays within what may be spent;
* `toFunds_of_allocate` — what is kept is never cut off at the payment;
* `AllocationPlan.Charges`, `allocate_charges` — the accounts of every plan.
-/

namespace TokenSale

/-! ## slots and tiers -/

/-- The price of one band of a tier: of the discounted part, or of the rest. -/
def TierSpec.priceIn (s : TierSpec) (discount : Bool) : Price :=
  if discount then s.discountPrice else s.regularPrice

/-- A slot is a band of a tier, at the price of that band. -/
theorem exists_tier_of_mem_slotsFrom {eligible : Bool} {index : Nat} {tiers : List Tier} {s : Slot}
    (h : s ∈ slotsFrom eligible index tiers) :
    ∃ i t, s.index = index + i ∧ tiers[i]? = some t ∧ s.price = t.spec.priceIn s.isDiscount := by
  induction tiers generalizing index with
  | nil => contradiction
  | cons t rest ih =>
      rw [slotsFrom, List.mem_append] at h
      obtain h | h := h
      · simp only [Tier.slots, List.mem_filter, List.mem_cons, List.not_mem_nil, or_false] at h
        obtain ⟨rfl | rfl, -⟩ := h
        · exact ⟨0, t, rfl, rfl, rfl⟩
        · exact ⟨0, t, rfl, rfl, rfl⟩
      · obtain ⟨i, t', hindex, ht', hprice⟩ := ih h
        exact ⟨i + 1, t', by omega, by simpa using ht', hprice⟩

/-! ## units -/

section Plans

variable {policy : AllocationPolicy} {input : AllocationInput} {tiers : TierLedger}
  {caps : CapTracker} {plan : AllocationPlan}

/-- A plan stays within what may be spent. -/
theorem consumed_le_available (ht : tiers.Built)
    (h : allocate policy input tiers caps = .ok plan) :
    plan.result.unitsConsumed.val ≤ plan.availableUnits.val :=
  (unitsConsumed_of_allocate ht h).trans_le (allocate_isGreatest ht h).1.2

/-- What was bought is not free. -/
theorem consumed_pos (ht : tiers.Built) (h : allocate policy input tiers caps = .ok plan) :
    0 < plan.result.unitsConsumed.val := by
  have hgreedy := greedy_of_allocate ht h
  have hsum := (allocate_adds h).units
  have htokens := (made_of_allocate h).tokens_pos
  rw [(allocate_adds h).tokens] at htokens
  cases hfills : plan.fills with
  | nil =>
      rw [hfills] at htokens
      contradiction
  | cons f fs =>
      have hf : f ∈ plan.fills := by simp [hfills]
      obtain ⟨s, hs, -, hcost⟩ := hgreedy.exists_slot f hf
      have hpos := Price.exactCost_pos (ht.isOpen _ s hs).2 (hgreedy.pos (ht.isOpen _) f hf)
      rw [hfills, spentOn_cons, (Price.costOf_ok hcost).2] at hsum
      omega

/-- Whoever has a limit stays within it. -/
theorem consumed_le_limit (ht : tiers.Built) (h : allocate policy input tiers caps = .ok plan)
    (hclass : input.investorClass = .nonAccredited) :
    (caps.currentSpend input.investor).val + plan.result.unitsConsumed.val ≤
      (caps.effectiveLimit input.investor).val := by
  have hspent := consumed_le_available ht h
  obtain ⟨hless, hroom⟩ := (spendable_ok (made_of_allocate h).start.spendable).2 hclass
  omega

/-! ## payments -/

/-- **What is kept is what the units turn back into**: that is never more than
the payment. -/
theorem toFunds_of_allocate (ht : tiers.Built) (h : allocate policy input tiers caps = .ok plan) :
    input.rate.toFunds plan.result.unitsConsumed = some plan.result.fundsConsumed := by
  have hplan := made_of_allocate h
  have hle := (consumed_le_available ht h).trans (spendable_le hplan.start.spendable)
  obtain ⟨worth, hworth, hconsumed⟩ := hplan.consumed
  obtain ⟨worth', hworth', hfits⟩ := Rate.exists_toFunds hplan.start.usable hplan.start.worth hle
  rw [hworth, Option.some.injEq] at hworth'
  subst hworth'
  have hleast : worth.least input.amount = worth := if_pos hfits
  rw [hworth, hconsumed, hleast]

/-- The accounts of a plan. -/
structure AllocationPlan.Charges (input : AllocationInput) (tiers : TierLedger) (caps : CapTracker)
    (plan : AllocationPlan) : Prop where
  /-- Every fill is charged what its tokens cost in its band of its tier. -/
  fill : ∀ f ∈ plan.fills, ∃ t, tiers.tiers[f.tierIndex]? = some t ∧
    f.price = t.spec.priceIn f.isDiscount ∧ f.price.costOf f.tokens = some f.units
  /-- The totals are the sums over the fills. -/
  tokens : plan.result.tokensAllocated.val = (plan.fills.map fun f => f.tokens.val).sum
  units : plan.result.unitsConsumed.val = (plan.fills.map fun f => f.units.val).sum
  /-- What is spent may be spent, and the payment is worth it. -/
  consumed_le : plan.result.unitsConsumed ≤ plan.availableUnits
  available_le : plan.availableUnits ≤ plan.requestedUnits
  requested : plan.requestedUnits.val =
    input.amount.val * input.rate.numerator.val / input.rate.denominator.val
  limit : input.investorClass = .nonAccredited →
    (caps.currentSpend input.investor).val + plan.result.unitsConsumed.val ≤
      (caps.effectiveLimit input.investor).val
  /-- The payment is kept or goes back. -/
  payment : plan.result.fundsConsumed.val + plan.result.fundsRefunded.val = input.amount.val
  /-- The least payment is kept that is worth what was bought: one base unit
  less would be worth less. -/
  kept : IsLeast {m | plan.result.unitsConsumed.val * input.rate.denominator.val ≤
    m * input.rate.numerator.val} plan.result.fundsConsumed.val
  short : 0 < plan.result.fundsConsumed.val ∧
    (plan.result.fundsConsumed.val - 1) * input.rate.numerator.val <
      plan.result.unitsConsumed.val * input.rate.denominator.val
  /-- It is not cut off at the payment. -/
  uncut : input.rate.toFunds plan.result.unitsConsumed = some plan.result.fundsConsumed

/-- **Every plan is charged for exactly.** -/
theorem allocate_charges (ht : tiers.Built) (h : allocate policy input tiers caps = .ok plan) :
    plan.Charges input tiers caps := by
  have hplan := made_of_allocate h
  have hadds := allocate_adds h
  have huncut := toFunds_of_allocate ht h
  have hkept := Rate.isLeast_toFunds huncut
  have hpos : 0 < plan.result.fundsConsumed.val := by
    have hworth : 0 < plan.result.unitsConsumed.val * input.rate.denominator.val :=
      Nat.mul_pos (consumed_pos ht h) (Rate.isUsable_iff.1 hplan.start.usable).2
    exact Nat.pos_of_mul_pos_right (hworth.trans_le hkept.1)
  refine ⟨fun f hf => ?_, hadds.tokens, hadds.units, consumed_le_available ht h,
    spendable_le hplan.start.spendable, Rate.toUnits_ok hplan.start.worth,
    consumed_le_limit ht h, hadds.funds, hkept, ⟨hpos, ?_⟩, huncut⟩
  · obtain ⟨s, hs, hfill, hcost⟩ := (greedy_of_allocate ht h).exists_slot f hf
    obtain ⟨i, t, hindex, ht', hprice⟩ := exists_tier_of_mem_slotsFrom hs
    rw [Nat.zero_add] at hindex
    subst hindex
    rw [hfill]
    exact ⟨t, ht', hprice, hcost⟩
  · by_contra hnot
    have hle := hkept.2 (Nat.le_of_not_lt hnot)
    omega

end Plans

/-- Fifty base units of a currency of which 37 are worth 13 units, paid by somebody
who is not accredited. -/
def Sample.oddPayment : AllocationInput :=
  { Sample.payment with
    investorClass := .nonAccredited
    amount := ⟨50, by decide⟩
    rate := ⟨⟨13, by decide⟩, ⟨37, by decide⟩, default⟩ }

/-- They are worth 17 units, of which a limit leaves 11; seven tokens are bought
for 10 of these, and 29 are kept, the least that is worth 10 units. -/
theorem allocate_charges_odd_payment : ∃ plan,
    allocate ⟨.one, some (.ofText "USD")⟩ Sample.oddPayment Sample.tiers
      (.withLimit ⟨11, by decide⟩) = .ok plan ∧
    (plan.requestedUnits.val, plan.availableUnits.val, plan.result.tokensAllocated.val,
      plan.result.unitsConsumed.val) = (17, 11, 7, 10) ∧
    (plan.result.fundsConsumed.val, plan.result.fundsRefunded.val) = (29, 21) ∧
    plan.Charges Sample.oddPayment Sample.tiers (.withLimit ⟨11, by decide⟩) := by
  obtain ⟨plan, hplan⟩ : ∃ plan, allocate ⟨.one, some (.ofText "USD")⟩ Sample.oddPayment
      Sample.tiers (.withLimit ⟨11, by decide⟩) = .ok plan := ⟨_, rfl⟩
  refine ⟨plan, hplan, ?_, ?_, allocate_charges Sample.built_tiers hplan⟩
  · cases hplan
    rfl
  · cases hplan
    rfl

end TokenSale
