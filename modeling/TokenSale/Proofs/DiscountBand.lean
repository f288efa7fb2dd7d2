import Mathlib.Tactic.Ring
import TokenSale.Proofs.PlanAccounting

/-!
# TokenSale.Proofs.DiscountBand

What a discount is worth to a buyer.  The discounted part of a tier and the
rest of it are charged apart, each rounded up to whole units, while a buyer
without the discount pays for both at once and is rounded up once.  So a
discount is paid for by less than one unit in every tier that is bought beyond
its discounted part, and there only if rounding that part up costs more than
the discount takes off.

* `TierSpec.discount_le_regular` — a discount is one;
* `Price.exactCost_add_le_succ`, `Price.add_exactCost_le` — what rounding up
  apart costs at most, and when it costs nothing;
* `Tier.RoundsAway`, `bandsRoundedAway` — the discounted parts that are dearer
  than without the discount;
* `prefixCost_discounted_le` — prefixes with the discount against those without;
* `allocate_discounted` — the two plans.
-/

namespace TokenSale

/-! ## rounding up apart -/

namespace Price

variable {p q : Price}

/-- The exact cost is less than one unit above the price. -/
theorem mul_exactCost_lt (hp : 0 < p.tokens.val) (n : Nat) :
    p.tokens.val * p.exactCost n < n * p.units.val + p.tokens.val := by
  rw [exactCost, Nat.ceilDiv_eq_add_pred_div, Nat.mul_comm]
  have hle := Nat.div_mul_le_self (n * p.units.val + p.tokens.val - 1) p.tokens.val
  omega

/-- Rounding two amounts up apart costs at most one unit more than together. -/
theorem exactCost_add_le_succ (hp : 0 < p.tokens.val) (m n : Nat) :
    p.exactCost m + p.exactCost n ≤ p.exactCost (m + n) + 1 := by
  have htogether : (m + n) * p.units.val ≤ p.tokens.val * p.exactCost (m + n) :=
    (exactCost_le_iff hp).1 le_rfl
  rw [Nat.add_mul] at htogether
  have happart : p.tokens.val * (p.exactCost m + p.exactCost n) <
      p.tokens.val * (p.exactCost (m + n) + 2) := by
    rw [Nat.mul_add, Nat.mul_add _ _ 2]
    have hm := mul_exactCost_lt hp m
    have hn := mul_exactCost_lt hp n
    omega
  exact Nat.le_of_lt_succ (Nat.lt_of_mul_lt_mul_left happart)

/-- Whole units that `m` tokens are worth may be paid for these apart. -/
theorem add_exactCost_le (hp : 0 < p.tokens.val) {units m : Nat}
    (h : p.tokens.val * units ≤ m * p.units.val) (n : Nat) :
    units + p.exactCost n ≤ p.exactCost (m + n) := by
  have htogether : (m + n) * p.units.val ≤ p.tokens.val * p.exactCost (m + n) :=
    (exactCost_le_iff hp).1 le_rfl
  rw [Nat.add_mul] at htogether
  have hle : units ≤ p.exactCost (m + n) :=
    Nat.le_of_mul_le_mul_left (h.trans ((Nat.le_add_right _ _).trans htogether)) hp
  have hrest : p.exactCost n ≤ p.exactCost (m + n) - units := by
    rw [exactCost_le_iff hp, Nat.mul_sub]
    omega
  omega

/-- The cheaper price makes no amount dearer. -/
theorem exactCost_le_of_ratio (hp : 0 < p.tokens.val) (hq : 0 < q.tokens.val)
    (h : p.units.val * q.tokens.val ≤ q.units.val * p.tokens.val) (n : Nat) :
    p.exactCost n ≤ q.exactCost n := by
  have hcost : n * q.units.val ≤ q.tokens.val * q.exactCost n := (exactCost_le_iff hq).1 le_rfl
  rw [exactCost_le_iff hp]
  refine Nat.le_of_mul_le_mul_left ?_ hq
  calc q.tokens.val * (n * p.units.val)
      = n * (p.units.val * q.tokens.val) := by ring
    _ ≤ n * (q.units.val * p.tokens.val) := Nat.mul_le_mul_left _ h
    _ = p.tokens.val * (n * q.units.val) := by ring
    _ ≤ p.tokens.val * (q.tokens.val * q.exactCost n) := Nat.mul_le_mul_left _ hcost
    _ = q.tokens.val * (p.tokens.val * q.exactCost n) := by ring

end Price

/-- The discount price of a tier that was checked is not above its regular one. -/
theorem TierSpec.discount_le_regular {s : TierSpec} (h : s.fault? = none) :
    s.discountPrice.units.val * s.regularPrice.tokens.val ≤
      s.regularPrice.units.val * s.discountPrice.tokens.val :=
  have hs := fault?_eq_none_iff.1 h
  (Price.ratio_le_iff hs.discount.2 hs.regular.2).1 hs.ordered

/-! ## one tier -/

namespace Tier

variable {t : Tier}

/-- The discounted part is dearer than without the discount: its cost, rounded
up to whole units, is more than it comes to at the regular price. -/
def RoundsAway (t : Tier) : Prop :=
  t.remainingDiscount.val * t.spec.regularPrice.units.val <
    t.spec.regularPrice.tokens.val * t.spec.discountPrice.exactCost t.remainingDiscount.val

instance (t : Tier) : Decidable t.RoundsAway := inferInstanceAs (Decidable (_ < _))

/-- What the first tokens of a tier cost, part by part. -/
theorem prefixCost_slots (t : Tier) (eligible : Bool) (index n : Nat) :
    prefixCost (t.slots eligible index) n =
      t.spec.discountPrice.exactCost (min n (t.offeredDiscount eligible).val) +
        t.spec.regularPrice.exactCost (min (n - (t.offeredDiscount eligible).val)
          (t.remaining.val - (t.offeredDiscount eligible).val)) := by
  simp only [slots, prefixCost_filter, prefixCost, Quantity.val_subClamped, Nat.add_zero]

/-- Without the discount a tier is sold as a whole. -/
theorem prefixCost_slots_regular (t : Tier) (index n : Nat) :
    prefixCost (t.slots false index) n =
      t.spec.regularPrice.exactCost (min n t.remaining.val) := by
  simp [prefixCost_slots, offeredDiscount]

/-- In one tier the discount costs at most one unit, and nothing where the
discounted part is not left behind or is no dearer for it. -/
theorem prefixCost_discounted_le (ht : t.spec.fault? = none) (index n : Nat) :
    prefixCost (t.slots true index) n ≤ prefixCost (t.slots false index) n +
      if t.remainingDiscount.val < min n t.remaining.val ∧ t.RoundsAway then 1 else 0 := by
  obtain ⟨hregular, hdiscount⟩ := TierSpec.isPriced_of_fault? ht
  have hcheaper := Price.exactCost_le_of_ratio (Price.isValid_iff.1 hdiscount).2
    (Price.isValid_iff.1 hregular).2 (TierSpec.discount_le_regular ht)
  have hpart := t.remainingDiscount_le
  rw [prefixCost_slots_regular, prefixCost_slots]
  simp only [offeredDiscount, if_true]
  obtain hbeyond | hwithin := Nat.lt_or_ge t.remainingDiscount.val (min n t.remaining.val)
  · have hband : min n t.remainingDiscount.val = t.remainingDiscount.val := by omega
    obtain ⟨rest, hrest⟩ := Nat.exists_eq_add_of_le hbeyond.le
    have hbehind : min (n - t.remainingDiscount.val)
        (t.remaining.val - t.remainingDiscount.val) = rest := by omega
    rw [hband, hbehind, hrest]
    by_cases haway : t.RoundsAway
    · rw [if_pos ⟨hrest ▸ hbeyond, haway⟩]
      exact (Nat.add_le_add_right (hcheaper _) _).trans
        (Price.exactCost_add_le_succ (Price.isValid_iff.1 hregular).2 _ _)
    · rw [if_neg fun h => haway h.2, Nat.add_zero]
      exact Price.add_exactCost_le (Price.isValid_iff.1 hregular).2 (Nat.le_of_not_lt haway) _
  · -- nothing is bought of the rest of the tier
    have hnone : min (n - t.remainingDiscount.val)
        (t.remaining.val - t.remainingDiscount.val) = 0 := by omega
    have hall : min n t.remainingDiscount.val = min n t.remaining.val := by omega
    rw [hnone, hall, Price.exactCost_zero]
    exact (hcheaper _).trans (Nat.le_add_right _ _)

/-- A discounted part that costs whole units is not dearer for the discount. -/
theorem not_roundsAway (ht : t.spec.fault? = none)
    (h : t.spec.discountPrice.tokens.val ∣
      t.remainingDiscount.val * t.spec.discountPrice.units.val) : ¬ t.RoundsAway := by
  obtain ⟨hregular, hdiscount⟩ := TierSpec.isPriced_of_fault? ht
  have htokens := (Price.isValid_iff.1 hdiscount).2
  obtain ⟨units, hunits⟩ := h
  have hexact : t.spec.discountPrice.exactCost t.remainingDiscount.val ≤ units := by
    rw [Price.exactCost_le_iff htokens, hunits]
  rw [RoundsAway, Nat.not_lt]
  refine (Nat.mul_le_mul_left _ hexact).trans (Nat.le_of_mul_le_mul_left ?_ htokens)
  calc t.spec.discountPrice.tokens.val * (t.spec.regularPrice.tokens.val * units)
      = t.spec.discountPrice.tokens.val * units * t.spec.regularPrice.tokens.val := by ring
    _ = t.remainingDiscount.val *
          (t.spec.discountPrice.units.val * t.spec.regularPrice.tokens.val) := by
        rw [← hunits, Nat.mul_assoc]
    _ ≤ t.remainingDiscount.val *
          (t.spec.regularPrice.units.val * t.spec.discountPrice.tokens.val) :=
        Nat.mul_le_mul_left _ (TierSpec.discount_le_regular ht)
    _ = t.spec.discountPrice.tokens.val *
          (t.remainingDiscount.val * t.spec.regularPrice.units.val) := by ring

end Tier

/-! ## all tiers -/

/-- The tiers that the first `n` tokens take beyond a discounted part which is
dearer than without the discount. -/
def bandsRoundedAway : List Tier → Nat → Nat
  | [], _ => 0
  | t :: rest, n =>
    (if t.remainingDiscount.val < min n t.remaining.val ∧ t.RoundsAway then 1 else 0) +
      bandsRoundedAway rest (n - t.remaining.val)

/-- **The discount costs at most one unit for each such tier.** -/
theorem prefixCost_discounted_le {tiers : List Tier} (ht : ∀ t ∈ tiers, t.spec.fault? = none)
    (index n : Nat) :
    prefixCost (slotsFrom true index tiers) n ≤
      prefixCost (slotsFrom false index tiers) n + bandsRoundedAway tiers n := by
  induction tiers generalizing index n with
  | nil => exact Nat.zero_le _
  | cons t rest ih =>
      obtain ⟨hfirst, hrest⟩ := List.forall_mem_cons.1 ht
      have htier := Tier.prefixCost_discounted_le hfirst index n
      have hbehind := ih hrest (index + 1) (n - t.remaining.val)
      rw [slotsFrom, slotsFrom, prefixCost_append, prefixCost_append, Tier.tokensOn_slots,
        Tier.tokensOn_slots, bandsRoundedAway]
      omega

theorem bandsRoundedAway_eq_zero {tiers : List Tier} (h : ∀ t ∈ tiers, ¬ t.RoundsAway) (n : Nat) :
    bandsRoundedAway tiers n = 0 := by
  induction tiers generalizing n with
  | nil => rfl
  | cons t rest ih =>
      obtain ⟨hfirst, hrest⟩ := List.forall_mem_cons.1 h
      rw [bandsRoundedAway, if_neg (fun haway => hfirst haway.2), ih hrest]

/-! ## plans -/

section Plans

variable {policy : AllocationPolicy} {input : AllocationInput} {tiers : TierLedger}
  {caps : CapTracker} {c c' : Currency} {plan other : AllocationPlan}

/-- The currency has no part in what may be spent. -/
theorem available_of_currency
    (h : allocate policy { input with currency := c } tiers caps = .ok plan)
    (h' : allocate policy { input with currency := c' } tiers caps = .ok other) :
    plan.availableUnits = other.availableUnits := by
  have hstart := (made_of_allocate h).start
  have hstart' := (made_of_allocate h').start
  have hworth : plan.requestedUnits = other.requestedUnits :=
    Option.some.inj (hstart.worth.symm.trans hstart'.worth)
  have hspendable : spendable caps input plan.requestedUnits = .ok other.availableUnits :=
    hworth ▸ hstart'.spendable
  exact Except.ok.inj (hstart.spendable.symm.trans hspendable)

/-- **A discount is never paid for by more than roundings.**  Of two buyers who
pay the same, the one in the discount currency gets as many tokens as the other
would for a unit less in every tier whose discounted part is dearer for it and
is left behind; so he gets no fewer than the other if there is no such tier, as
when every discounted part costs whole units. -/
theorem allocate_discounted (ht : tiers.Built) (hc : policy.discountCurrency = some c)
    (hne : c' ≠ c) (h : allocate policy { input with currency := c } tiers caps = .ok plan)
    (h' : allocate policy { input with currency := c' } tiers caps = .ok other) :
    plan.availableUnits = other.availableUnits ∧
    (∀ n ≤ other.result.tokensAllocated.val,
      prefixCost (tiers.slots false) n + bandsRoundedAway tiers.tiers n ≤
        plan.availableUnits.val → n ≤ plan.result.tokensAllocated.val) ∧
    (bandsRoundedAway tiers.tiers other.result.tokensAllocated.val = 0 →
      other.result.tokensAllocated ≤ plan.result.tokensAllocated) ∧
    ((∀ t ∈ tiers.tiers, t.spec.discountPrice.tokens.val ∣
        t.remainingDiscount.val * t.spec.discountPrice.units.val) →
      other.result.tokensAllocated ≤ plan.result.tokensAllocated) := by
  have heligible : policy.isDiscountEligible c = true := by
    simp [AllocationPolicy.isDiscountEligible, hc]
  have hother : policy.isDiscountEligible c' = false := by
    simpa [AllocationPolicy.isDiscountEligible, hc] using hne.symm
  have hspend := available_of_currency h h'
  have hmost := (allocate_isGreatest ht h).2
  obtain ⟨hoffered, hcovered⟩ := (allocate_isGreatest ht h').1
  simp only [heligible, hother] at hmost hoffered hcovered
  have hcovers (n : Nat) (hn : n ≤ other.result.tokensAllocated.val)
      (hcost : prefixCost (tiers.slots false) n + bandsRoundedAway tiers.tiers n ≤
        plan.availableUnits.val) : n ≤ plan.result.tokensAllocated.val := by
    refine hmost ⟨?_, (prefixCost_discounted_le ht.fault?_eq_none 0 n).trans hcost⟩
    rw [TierLedger.slots, tokensOn_slotsFrom] at hoffered ⊢
    exact hn.trans hoffered
  have hnone (hzero : bandsRoundedAway tiers.tiers other.result.tokensAllocated.val = 0) :
      other.result.tokensAllocated ≤ plan.result.tokensAllocated :=
    hcovers _ le_rfl (by rwa [hzero, Nat.add_zero, hspend])
  refine ⟨hspend, hcovers, hnone, fun hwhole => hnone ?_⟩
  exact bandsRoundedAway_eq_zero
    (fun t hmem => Tier.not_roundsAway (ht.fault?_eq_none t hmem) (hwhole t hmem)) _

end Plans

/-- Twenty units buy eleven tokens at the discount and ten without. -/
theorem allocate_discounted_two_tiers : ∃ plan other,
    allocate ⟨.one, some (.ofText "POLY")⟩ { Sample.payment with currency := .ofText "POLY" }
      Sample.tiers (.withLimit .zero) = .ok plan ∧
    allocate ⟨.one, some (.ofText "POLY")⟩ { Sample.payment with currency := .ofText "USD" }
      Sample.tiers (.withLimit .zero) = .ok other ∧
    (plan.result.tokensAllocated.val, other.result.tokensAllocated.val) = (11, 10) ∧
    other.result.tokensAllocated ≤ plan.result.tokensAllocated := by
  obtain ⟨plan, other, hplan, hother, htokens⟩ : ∃ plan other,
      allocate ⟨.one, some (.ofText "POLY")⟩ { Sample.payment with currency := .ofText "POLY" }
        Sample.tiers (.withLimit .zero) = .ok plan ∧
      allocate ⟨.one, some (.ofText "POLY")⟩ { Sample.payment with currency := .ofText "USD" }
        Sample.tiers (.withLimit .zero) = .ok other ∧
      (plan.result.tokensAllocated.val, other.result.tokensAllocated.val) = (11, 10) :=
    ⟨_, _, rfl, rfl, rfl⟩
  have hne : Currency.ofText "USD" ≠ .ofText "POLY" := by decide
  obtain ⟨-, -, -, hwhole⟩ := allocate_discounted Sample.built_tiers rfl hne hplan hother
  exact ⟨plan, other, hplan, hother, htokens, hwhole (by decide)⟩

/-- Ten tokens are on offer at ten for a unit, the first of them at twenty for a
unit.  With the discount a unit buys that one, without it all ten: a token that
is worth less than a unit is charged a whole one. -/
theorem fewer_tokens_at_a_discount : ∃ tiers plan other,
    TierLedger.ofSpecs [(TierSpec.regular ⟨.one, ⟨10, by decide⟩⟩ ⟨10, by decide⟩).withDiscount
      ⟨.one, ⟨20, by decide⟩⟩ .one] = .ok tiers ∧
    allocate ⟨.zero, some (.ofText "POLY")⟩
      { Sample.payment with amount := .one, currency := .ofText "POLY" } tiers
      (.withLimit .zero) = .ok plan ∧
    allocate ⟨.zero, some (.ofText "POLY")⟩
      { Sample.payment with amount := .one, currency := .ofText "USD" } tiers
      (.withLimit .zero) = .ok other ∧
    (plan.result.tokensAllocated.val, other.result.tokensAllocated.val) = (1, 10) ∧
    plan.result.tokensAllocated < other.result.tokensAllocated ∧
    bandsRoundedAway tiers.tiers other.result.tokensAllocated.val = 1 :=
  ⟨_, _, _, rfl, rfl, rfl, rfl, by decide, by decide⟩

end TokenSale
