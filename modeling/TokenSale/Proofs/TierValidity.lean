import Mathlib.Algebra.Order.Field.Basic
import Mathlib.Data.Rat.Cast.Order
import Mathlib.Order.Bounds.Basic
import Mathlib.Tactic.Positivity
import TokenSale.Tier.Ledger

/-!
# TokenSale.Proofs.TierValidity

Which tiers a ledger opens with, and at which one it refuses them.  The check
goes from tier to tier with a running sum of capacities; what it amounts to is
a condition on each tier and one on the sum, and the tier that is named is the
first one with which those up to it violate either.

* `TierSpec.Sensible`, `TierSpec.fault?_eq_none_iff` — one tier;
* `TierSpec.Fit`, `TierLedger.checkSpecs_ok_iff` — tiers that are accepted;
* `TierLedger.least_of_checkSpecs` — the tier that is named;
* `ledger_opens_exactly` — the ledger.
-/

namespace TokenSale

/-! ## the order of two prices -/

/-- Units for one token, exactly. -/
def Price.ratio (p : Price) : ℚ := p.units.val / p.tokens.val

/-- Prices are compared by cross multiplication. -/
theorem Price.ratio_le_iff {p q : Price} (hp : 0 < p.tokens.val) (hq : 0 < q.tokens.val) :
    p.ratio ≤ q.ratio ↔ p.units.val * q.tokens.val ≤ q.units.val * p.tokens.val := by
  have hp : (0 : ℚ) < p.tokens.val := by exact_mod_cast hp
  have hq : (0 : ℚ) < q.tokens.val := by exact_mod_cast hq
  rw [ratio, ratio, div_le_div_iff₀ hp hq]
  exact_mod_cast Iff.rfl

/-- Prices compare as not above exactly if both cross products fit and are so ordered. -/
theorem Price.compare?_not_gt_iff {p q : Price} :
    (∃ order, p.compare? q = some order ∧ order ≠ .gt) ↔
      (p.units.val * q.tokens.val < Quantity.limit ∧
        q.units.val * p.tokens.val < Quantity.limit) ∧
        p.units.val * q.tokens.val ≤ q.units.val * p.tokens.val := by
  unfold compare?
  split
  next hfits => simp [hfits, Nat.compare_ne_gt]
  next hfits => simp [hfits]

/-! ## one tier -/

namespace TierSpec

variable {s : TierSpec} {specs : List TierSpec}

/-- The shape of a tier makes sense. -/
structure Sensible (s : TierSpec) : Prop where
  /-- The regular price has two sides. -/
  regular : 0 < s.regularPrice.units.val ∧ 0 < s.regularPrice.tokens.val
  /-- The discount price has two sides. -/
  discount : 0 < s.discountPrice.units.val ∧ 0 < s.discountPrice.tokens.val
  /-- The discount price is not above the regular one. -/
  ordered : s.discountPrice.ratio ≤ s.regularPrice.ratio
  /-- The prices can be compared. -/
  comparable : s.discountPrice.units.val * s.regularPrice.tokens.val < Quantity.limit ∧
    s.regularPrice.units.val * s.discountPrice.tokens.val < Quantity.limit
  /-- There is something to sell. -/
  offers : 0 < s.totalCapacity.val
  /-- The discounted part is a part of the tier. -/
  within : s.discountCapacity.val ≤ s.totalCapacity.val

/-- **A tier is accepted exactly if it makes sense.** -/
theorem fault?_eq_none_iff : s.fault? = none ↔ s.Sensible := by
  have hcompare := @Price.compare?_not_gt_iff s.discountPrice s.regularPrice
  constructor
  · intro h
    unfold fault? at h
    split at h
    · contradiction
    next hzero =>
    obtain ⟨hregular, hdiscount⟩ : s.regularPrice.isValid = true ∧ s.discountPrice.isValid = true := by
      simpa using hzero
    rw [Price.isValid_iff] at hregular hdiscount
    split at h
    · contradiction
    · contradiction
    next order hordered horder =>
    obtain ⟨hcomparable, hle⟩ := hcompare.1 ⟨order, horder, fun hgt => hordered hgt⟩
    split at h
    · contradiction
    next hcapacity =>
    split at h
    · contradiction
    next hwithin =>
    exact ⟨hregular, hdiscount, (Price.ratio_le_iff hdiscount.2 hregular.2).2 hle, hcomparable,
      Nat.pos_of_ne_zero (by simpa using hcapacity), Nat.le_of_not_lt hwithin⟩
  · intro h
    obtain ⟨order, horder, hne⟩ := hcompare.2
      ⟨h.comparable, (Price.ratio_le_iff h.discount.2 h.regular.2).1 h.ordered⟩
    have hregular := Price.isValid_iff.2 h.regular
    have hdiscount := Price.isValid_iff.2 h.discount
    have hcapacity : s.totalCapacity.isZero = false := Quantity.isZero_eq_false_iff.2 h.offers
    have hwithin : ¬ s.totalCapacity < s.discountCapacity := Nat.not_lt.2 h.within
    unfold fault?
    rw [hregular, hdiscount, horder, hcapacity]
    cases order with
    | gt => exact absurd rfl hne
    | lt | eq => simp [hwithin]

/-- Tiers make sense, and with so many tokens offered before them what they
offer can be counted. -/
structure Fit (before : Nat) (specs : List TierSpec) : Prop where
  sensible : ∀ s ∈ specs, s.Sensible
  counted : before + (specs.map fun s => s.totalCapacity.val).sum < Quantity.limit

/-- Tiers fit if the first is sensible and the rest fits on top of it. -/
theorem fit_cons_iff {before : Nat} : Fit before (s :: specs) ↔
    s.Sensible ∧ Fit (before + s.totalCapacity.val) specs := by
  constructor
  · intro ⟨hsensible, hcounted⟩
    rw [List.map_cons, List.sum_cons, ← Nat.add_assoc] at hcounted
    exact ⟨hsensible s (.head _), fun t ht => hsensible t (.tail _ ht), hcounted⟩
  · intro ⟨hs, hsensible, hcounted⟩
    refine ⟨List.forall_mem_cons.2 ⟨hs, hsensible⟩, ?_⟩
    rwa [List.map_cons, List.sum_cons, ← Nat.add_assoc]

/-- The front of tiers that fit fits. -/
theorem Fit.take {before : Nat} (h : Fit before specs) (n : Nat) : Fit before (specs.take n) where
  sensible s hs := h.sensible s (List.mem_of_mem_take hs)
  counted := by
    have hle := ((List.take_sublist n specs).map fun s => s.totalCapacity.val).sum_le_sum
      fun _ _ => Nat.zero_le _
    exact Nat.lt_of_le_of_lt (Nat.add_le_add_left hle _) h.counted

end TierSpec

open TierSpec

/-! ## the check -/

namespace TierLedger

variable {index : Nat} {capacity : Tokens} {s : TierSpec} {specs : List TierSpec} {e : LedgerError}

/-- A tier with which those up to it do not fit is named. -/
theorem checkSpecs_of_not_fit (h : ¬ Fit capacity.val [s]) :
    checkSpecs index capacity (s :: specs) =
      .error (.invalidTier index (s.fault?.getD .capacitiesOverflow)) := by
  unfold checkSpecs
  cases hfault : s.fault? with
  | some fault => rfl
  | none =>
      have hnone : capacity.add? s.totalCapacity = none := by
        rw [Quantity.add?_eq_none_iff]
        by_contra hlt
        exact h (fit_cons_iff.2 ⟨fault?_eq_none_iff.1 hfault, by simp, by simpa using hlt⟩)
      simp only [hnone, Option.getD_none]

/-- A tier with which those up to it fit is added to them. -/
theorem checkSpecs_of_fit (h : Fit capacity.val [s]) :
    ∃ sum : Tokens, sum.val = capacity.val + s.totalCapacity.val ∧
      ∀ index specs, checkSpecs index capacity (s :: specs) = checkSpecs (index + 1) sum specs := by
  obtain ⟨hs, hfit⟩ := fit_cons_iff.1 h
  have hlt : capacity.val + s.totalCapacity.val < Quantity.limit := by simpa using hfit.counted
  have hsum : capacity.add? s.totalCapacity = some ⟨_, hlt⟩ := Quantity.add?_eq_some_iff.2 rfl
  refine ⟨⟨_, hlt⟩, rfl, fun index specs => ?_⟩
  simp only [checkSpecs, fault?_eq_none_iff.2 hs, hsum]

/-- **Tiers are accepted exactly if they make sense and can be counted.** -/
theorem checkSpecs_ok_iff :
    checkSpecs index capacity specs = .ok () ↔ Fit capacity.val specs := by
  induction specs generalizing index capacity with
  | nil => exact iff_of_true rfl ⟨by simp, by simpa using capacity.val_lt⟩
  | cons s specs ih =>
      by_cases hs : Fit capacity.val [s]
      · obtain ⟨sum, hsum, hcheck⟩ := checkSpecs_of_fit hs
        rw [hcheck, ih, fit_cons_iff, hsum]
        exact (and_iff_right (fit_cons_iff.1 hs).1).symm
      · rw [checkSpecs_of_not_fit hs]
        exact iff_of_false nofun fun h => hs (h.take 1)

/-- **The tier that is named** is the first one with which those up to it do not fit. -/
theorem least_of_checkSpecs (h : checkSpecs index capacity specs = .error e) :
    ∃ i s, specs[i]? = some s ∧ IsLeast {i | ¬ Fit capacity.val (specs.take (i + 1))} i ∧
      e = .invalidTier (index + i) (s.fault?.getD .capacitiesOverflow) := by
  induction specs generalizing index capacity with
  | nil => cases h
  | cons s specs ih =>
      by_cases hs : Fit capacity.val [s]
      · obtain ⟨sum, hsum, hcheck⟩ := checkSpecs_of_fit hs
        rw [hcheck] at h
        obtain ⟨i, t, ht, ⟨hviolates, hleast⟩, rfl⟩ := ih h
        -- tiers up to `j + 1` fit here exactly if those up to `j` fit behind the first one
        have hshift (j : Nat) : Fit capacity.val ((s :: specs).take (j + 1 + 1)) ↔
            Fit sum.val (specs.take (j + 1)) := by
          rw [List.take_succ_cons, fit_cons_iff, hsum]
          exact and_iff_right (fit_cons_iff.1 hs).1
        refine ⟨i + 1, t, ht, ⟨fun hfit => hviolates ((hshift i).1 hfit), fun j hj => ?_⟩, ?_⟩
        · cases j with
          | zero => exact absurd hs hj
          | succ j => exact Nat.succ_le_succ (hleast fun hfit => hj ((hshift j).2 hfit))
        · rw [Nat.add_assoc, Nat.add_comm 1]
      · rw [checkSpecs_of_not_fit hs] at h
        cases h
        exact ⟨0, s, rfl, ⟨hs, fun j _ => Nat.zero_le j⟩, rfl⟩

/-- **The check names the first tier up to which they do not fit.** -/
theorem checkSpecs_error_iff : checkSpecs index capacity specs = .error e ↔
    ∃ i s, specs[i]? = some s ∧ IsLeast {i | ¬ Fit capacity.val (specs.take (i + 1))} i ∧
      e = .invalidTier (index + i) (s.fault?.getD .capacitiesOverflow) := by
  refine ⟨least_of_checkSpecs, fun ⟨i, s, hs, hi, he⟩ => ?_⟩
  cases hcheck : checkSpecs index capacity specs with
  | ok u => exact absurd ((checkSpecs_ok_iff.1 hcheck).take _) hi.1
  | error e' =>
      obtain ⟨i', s', hs', hi', he'⟩ := least_of_checkSpecs hcheck
      obtain rfl := hi.unique hi'
      obtain rfl := Option.some.inj (hs.symm.trans hs')
      rw [he, he']

/-! ## the ledger -/

theorem ofSpecs_of_ne_nil (h : specs ≠ []) :
    ofSpecs specs = (checkSpecs 0 .zero specs).map fun _ => ⟨specs.map .fresh⟩ := by
  cases specs with
  | nil => exact absurd rfl h
  | cons s specs => rfl

/-- **Tiers open a ledger** of just them, nothing sold, exactly if there are any
and they fit. -/
theorem ofSpecs_ok_iff {l : TierLedger} : ofSpecs specs = .ok l ↔
    (specs ≠ [] ∧ Fit 0 specs) ∧ l = ⟨specs.map .fresh⟩ := by
  by_cases hne : specs = []
  · exact iff_of_false (by rw [hne]; nofun) fun h => h.1.1 hne
  have hcheck := @checkSpecs_ok_iff 0 .zero specs
  rw [Quantity.val_zero] at hcheck
  rw [ofSpecs_of_ne_nil hne, ← hcheck]
  cases checkSpecs 0 .zero specs with
  | ok u =>
      exact ⟨fun h => ⟨⟨hne, rfl⟩, (Except.ok.inj h).symm⟩, fun h => congrArg Except.ok h.2.symm⟩
  | error e => exact iff_of_false nofun fun h => nomatch h.1.2

/-- A ledger has the shapes that it was opened with. -/
theorem specs_of_ofSpecs {l : TierLedger} (h : ofSpecs specs = .ok l) : l.specs = specs := by
  obtain ⟨-, rfl⟩ := ofSpecs_ok_iff.1 h
  simp [TierLedger.specs, Tier.fresh, Function.comp_def]

/-- A ledger is refused for having no tiers, or for the first that does not fit. -/
theorem ofSpecs_error_iff : ofSpecs specs = .error e ↔
    (specs = [] ∧ e = .emptyTierSet) ∨
      ∃ i s, specs[i]? = some s ∧ IsLeast {i | ¬ Fit 0 (specs.take (i + 1))} i ∧
        e = .invalidTier i (s.fault?.getD .capacitiesOverflow) := by
  by_cases hne : specs = []
  · subst hne
    constructor
    · intro h
      exact .inl ⟨rfl, (Except.error.inj h).symm⟩
    · rintro (⟨-, rfl⟩ | ⟨i, s, hs, -⟩)
      · rfl
      · cases hs
  have hcheck := @checkSpecs_error_iff 0 .zero specs e
  simp only [Quantity.val_zero, Nat.zero_add] at hcheck
  rw [ofSpecs_of_ne_nil hne, ← hcheck]
  cases checkSpecs 0 .zero specs with
  | ok u => exact iff_of_false nofun fun h => h.elim (fun h => hne h.1) nofun
  | error e' =>
      exact ⟨fun h => .inr (congrArg Except.error (Except.error.inj h)),
        fun h => h.elim (fun h => absurd h.1 hne) fun h => congrArg Except.error (Except.error.inj h)⟩

end TierLedger

/-- **A ledger opens with exactly the valid sets of tiers**: there is one, each
makes sense, and together they offer what can be counted.  It has these tiers
in their order, and nothing is sold of them.  Otherwise there is no tier, or the
first one is named with which those up to it are not valid, with what is wrong
with it by itself, if anything is. -/
theorem ledger_opens_exactly (specs : List TierSpec) :
    ((∃ l, TierLedger.ofSpecs specs = .ok l) ↔ specs ≠ [] ∧ Fit 0 specs) ∧
      (∀ l, TierLedger.ofSpecs specs = .ok l →
        l.specs = specs ∧ ∀ t ∈ l.tiers, t.totalSold.val = 0 ∧ t.discountSold.val = 0) ∧
      ∀ e, TierLedger.ofSpecs specs = .error e ↔
        (specs = [] ∧ e = .emptyTierSet) ∨
          ∃ i s, specs[i]? = some s ∧ IsLeast {i | ¬ Fit 0 (specs.take (i + 1))} i ∧
            e = .invalidTier i (s.fault?.getD .capacitiesOverflow) := by
  refine ⟨⟨fun ⟨l, hl⟩ => (TierLedger.ofSpecs_ok_iff.1 hl).1,
    fun h => ⟨_, TierLedger.ofSpecs_ok_iff.2 ⟨h, rfl⟩⟩⟩,
    fun l hl => ⟨TierLedger.specs_of_ofSpecs hl, fun t ht => ?_⟩,
    fun e => TierLedger.ofSpecs_error_iff⟩
  obtain ⟨-, rfl⟩ := TierLedger.ofSpecs_ok_iff.1 hl
  obtain ⟨s, -, rfl⟩ := List.mem_map.1 ht
  exact ⟨rfl, rfl⟩

/-- Two tiers that make sense by themselves, each with one half of what can be
counted: the first one alone opens a ledger, and the second one is named. -/
theorem ledger_opens_exactly_two_halves :
    let half : TierSpec := .regular ⟨.one, .one⟩ ⟨2 ^ 127, by decide⟩
    TierLedger.ofSpecs [half, half] = .error (.invalidTier 1 .capacitiesOverflow) ∧
      IsLeast {i | ¬ Fit 0 ([half, half].take (i + 1))} 1 ∧ Fit 0 [half] ∧
        ∃ l, TierLedger.ofSpecs [half] = .ok l ∧ l.specs = [half] := by
  intro half
  have hrefused : TierLedger.ofSpecs [half, half] = .error (.invalidTier 1 .capacitiesOverflow) := by
    decide +kernel
  have hopened : TierLedger.ofSpecs [half] = .ok ⟨[.fresh half]⟩ := by rfl
  obtain ⟨hone, hspecs, -⟩ := ledger_opens_exactly [half]
  refine ⟨hrefused, ?_, (hone.1 ⟨_, hopened⟩).2, _, hopened, (hspecs _ hopened).1⟩
  obtain ⟨hnone, -⟩ | ⟨i, s, -, hleast, hindex⟩ := ((ledger_opens_exactly _).2.2 _).1 hrefused
  · cases hnone
  · obtain ⟨rfl, -⟩ := LedgerError.invalidTier.inj hindex
    exact hleast

end TokenSale
