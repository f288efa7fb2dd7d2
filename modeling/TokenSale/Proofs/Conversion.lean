import Mathlib.Algebra.Order.Floor.Div
import Mathlib.Algebra.Order.Floor.Semifield
import Mathlib.Data.Rat.Floor
import Mathlib.Order.Bounds.Basic
import TokenSale.Price
import TokenSale.Rate.Basic

/-!
# TokenSale.Proofs.Conversion

Conversions between scales are exact.  They multiply first and divide once, so
they lose less than one base unit, and they give up exactly where the product
leaves the range of amounts.

* `Quantity.mulDivFloor_eq_none_iff`, `mulDivCeil_eq_none_iff` — where they
  give up;
* `Quantity.GaloisPair` — a conversion and the one back;
* `Price.exactCost` — the cost of a token amount, whether or not it fits;
* `Price.isGreatest_tokensFor` — a budget buys the most that it pays for;
* `Rate.isLeast_toFunds` — what is kept of a payment is the least that is
  worth the units it is kept for;
* `Rate.exists_toFunds` — units that a payment is worth can be turned back;
* `conversions_exact` — all of it.
-/

namespace TokenSale

/-! ## quotients -/

/-- A quotient rounded up is one more than rounded down, unless it comes out even.
-/
theorem ceilDiv_eq {m c : Nat} (hc : 0 < c) :
    m ⌈/⌉ c = if m % c = 0 then m / c else m / c + 1 := by
  have hm : c * (m / c) + m % c = m := Nat.div_add_mod m c
  have hr : m % c < c := Nat.mod_lt m hc
  rw [Nat.ceilDiv_eq_add_pred_div]
  split
  · rw [Nat.div_eq_iff hc]
    constructor <;> grind
  · rw [Nat.div_eq_iff hc]
    constructor <;> grind

theorem ceilDiv_le_self {m c : Nat} (hc : 0 < c) : m ⌈/⌉ c ≤ m :=
  (ceilDiv_le_iff_le_mul hc).2 (Nat.le_mul_of_pos_left m hc)

/-- A quotient that is rounded up is the ceiling of the exact one. -/
theorem ceil_div_eq_ceilDiv {m c : Nat} (hc : 0 < c) : ⌈(m : ℚ) / c⌉₊ = m ⌈/⌉ c := by
  refine eq_of_forall_ge_iff fun k => ?_
  rw [Nat.ceil_le, div_le_iff₀' (Nat.cast_pos.2 hc), ceilDiv_le_iff_le_mul hc]
  exact_mod_cast Iff.rfl

/-- Rounding down on the way there and up on the way back fit together. -/
theorem galoisConnection_quotients {b c : Nat} (hb : 0 < b) (hc : 0 < c) :
    GaloisConnection (fun y => y * c ⌈/⌉ b) (fun x => x * b / c) := fun y x => by
  rw [ceilDiv_le_iff_le_mul hb, Nat.le_div_iff_mul_le hc, Nat.mul_comm x]

namespace Quantity

variable {s t : Scale} {a c : Quantity s} {b d : Quantity t}

/-- A quotient fits whenever the product does. -/
theorem mulDivFloor_eq_none_iff (hc : 0 < c.val) :
    a.mulDivFloor b c = none ↔ limit ≤ a.val * b.val := by
  unfold mulDivFloor
  rw [if_neg (by simpa using hc.ne')]
  split
  next hlt =>
    refine iff_of_false ?_ (Nat.not_le.2 hlt)
    rw [ofNat?_eq_none_iff, Nat.not_le]
    exact (Nat.div_le_self _ _).trans_lt hlt
  next hge => exact iff_of_true rfl (Nat.le_of_not_lt hge)

/-- A product divided with rounding up, and when it fits. -/
theorem mulDivCeil_eq (hc : 0 < c.val) : a.mulDivCeil b c =
    if a.val * b.val < limit then ofNat? (a.val * b.val ⌈/⌉ c.val) else none := by
  unfold mulDivCeil
  rw [if_neg (by simpa using hc.ne'), ceilDiv_eq hc, apply_ite ofNat?]

/-- A result rounded up is that of a divisor that is not zero. -/
theorem mulDivCeil_ok (h : a.mulDivCeil b c = some d) :
    0 < c.val ∧ d.val = a.val * b.val ⌈/⌉ c.val := by
  have hc : 0 < c.val := by
    by_contra hzero
    have hisZero : c.isZero = true := isZero_iff.2 (Nat.eq_zero_of_not_pos hzero)
    simp [mulDivCeil, hisZero] at h
  rw [mulDivCeil_eq hc] at h
  split at h
  · exact ⟨hc, ofNat?_eq_some_iff.1 h⟩
  · contradiction

/-- So does a quotient that is rounded up. -/
theorem mulDivCeil_eq_none_iff (hc : 0 < c.val) :
    a.mulDivCeil b c = none ↔ limit ≤ a.val * b.val := by
  rw [mulDivCeil_eq hc]
  split
  next hlt =>
    refine iff_of_false ?_ (Nat.not_le.2 hlt)
    rw [ofNat?_eq_none_iff, Nat.not_le]
    exact (ceilDiv_le_self hc).trans_lt hlt
  next hge => exact iff_of_true rfl (Nat.le_of_not_lt hge)

theorem mulDivFloor_fits (h : a.mulDivFloor b c = some d) : a.val * b.val < limit := by
  rw [← Nat.not_le, ← mulDivFloor_eq_none_iff (mulDivFloor_ok h).1, h]
  nofun

theorem mulDivCeil_fits (h : a.mulDivCeil b c = some d) : a.val * b.val < limit := by
  rw [← Nat.not_le, ← mulDivCeil_eq_none_iff (mulDivCeil_ok h).1, h]
  nofun

theorem map_val_eq_ite {o : Option (Quantity t)} {p : Prop} [Decidable p] {n : Nat}
    (hsome : ∀ d, o = some d → p ∧ d.val = n) (hnone : o = none → ¬ p) :
    o.map val = if p then some n else none := by
  cases o with
  | none => rw [if_neg (hnone rfl), Option.map_none]
  | some d =>
      obtain ⟨hp, hd⟩ := hsome d rfl
      rw [if_pos hp, Option.map_some, hd]

/-- **Rounding down gives the floor of the exact quotient, if the product fits.** -/
theorem mulDivFloor_map_val (a c : Quantity s) (b : Quantity t) :
    (a.mulDivFloor b c).map val = if 0 < c.val ∧ a.val * b.val < limit then
      some ⌊(a.val * b.val : ℚ) / c.val⌋₊ else none := by
  refine map_val_eq_ite (fun d h => ?_) fun h ⟨hc, hlt⟩ =>
    Nat.not_le.2 hlt ((mulDivFloor_eq_none_iff hc).1 h)
  obtain ⟨hc, hd⟩ := mulDivFloor_ok h
  exact ⟨⟨hc, mulDivFloor_fits h⟩, by rw [hd, ← Nat.cast_mul, Nat.floor_div_eq_div]⟩

/-- The unit added to round up never leaves the range of amounts. -/
theorem mulDivCeil_map_val (a c : Quantity s) (b : Quantity t) :
    (a.mulDivCeil b c).map val = if 0 < c.val ∧ a.val * b.val < limit then
      some ⌈(a.val * b.val : ℚ) / c.val⌉₊ else none := by
  refine map_val_eq_ite (fun d h => ?_) fun h ⟨hc, hlt⟩ =>
    Nat.not_le.2 hlt ((mulDivCeil_eq_none_iff hc).1 h)
  obtain ⟨hc, hd⟩ := mulDivCeil_ok h
  exact ⟨⟨hc, mulDivCeil_fits h⟩, by rw [hd, ← Nat.cast_mul, ceil_div_eq_ceilDiv hc]⟩

/-! ## there and back -/

/-- `down` multiplies by `b / c` and rounds down, `up` divides by it and rounds
up: as far as the products fit, the two are a Galois pair. -/
structure GaloisPair (b : Quantity t) (c : Quantity s) (down : Quantity s → Option (Quantity t))
    (up : Quantity t → Option (Quantity s)) : Prop where
  /-- An amount is covered by what another gives just if what it takes is covered
  by that other. -/
  le_iff : ∀ x y, x.val * b.val < limit → y.val * c.val < limit →
    ∃ given taken, down x = some given ∧ up y = some taken ∧ (y ≤ given ↔ taken ≤ x)
  /-- What was given can be turned back, into no more than it was given for. -/
  back : ∀ x y, down x = some y → ∃ taken, up y = some taken ∧ taken ≤ x

/-- What an amount covers can be turned back, into no more than the amount. -/
theorem exists_mulDivCeil_of_le (hb : 0 < b.val) (h : a.mulDivFloor b c = some d)
    {y : Quantity t} (hle : y.val ≤ d.val) :
    ∃ taken, y.mulDivCeil c b = some taken ∧ taken ≤ a := by
  obtain ⟨hc, hd⟩ := mulDivFloor_ok h
  -- rounding down on the way there pays for rounding up on the way back
  have hback : y.val * c.val ≤ a.val * b.val := by
    rw [← Nat.le_div_iff_mul_le hc, ← hd]
    exact hle
  cases htaken : y.mulDivCeil c b with
  | none =>
      rw [mulDivCeil_eq_none_iff hb] at htaken
      exact absurd htaken (Nat.not_le.2 (hback.trans_lt (mulDivFloor_fits h)))
  | some taken =>
      refine ⟨taken, rfl, ?_⟩
      rw [le_iff, (mulDivCeil_ok htaken).2]
      exact (galoisConnection_quotients hb hc y.val a.val).2 (hle.trans_eq hd)

/-- **Rounding down and rounding up back are a Galois pair.** -/
theorem galoisPair (hb : 0 < b.val) (hc : 0 < c.val) :
    GaloisPair b c (·.mulDivFloor b c) (·.mulDivCeil c b) where
  le_iff x y hx hy := by
    obtain ⟨given, hgiven⟩ := Option.ne_none_iff_exists'.1
      (mt (mulDivFloor_eq_none_iff hc).1 (Nat.not_le.2 hx))
    obtain ⟨taken, htaken⟩ := Option.ne_none_iff_exists'.1
      (mt (mulDivCeil_eq_none_iff hb).1 (Nat.not_le.2 hy))
    refine ⟨given, taken, hgiven, htaken, ?_⟩
    rw [le_iff, le_iff, (mulDivFloor_ok hgiven).2, (mulDivCeil_ok htaken).2]
    exact (galoisConnection_quotients hb hc y.val x.val).symm
  back x y h := exists_mulDivCeil_of_le hb h le_rfl

end Quantity

/-! ## prices -/

namespace Price

/-- What `amount` token base units cost, rounded up. -/
def exactCost (p : Price) (amount : Nat) : Nat := amount * p.units.val ⌈/⌉ p.tokens.val

variable {p : Price}

/-- A budget covers tokens exactly if it covers them at the exact price. -/
theorem exactCost_le_iff (hp : 0 < p.tokens.val) {amount budget : Nat} :
    p.exactCost amount ≤ budget ↔ amount * p.units.val ≤ p.tokens.val * budget :=
  ceilDiv_le_iff_le_mul hp

/-- Tokens at a valid price are never free. -/
theorem exactCost_pos (hp : p.isValid = true) {amount : Nat} (h : 0 < amount) :
    0 < p.exactCost amount := by
  obtain ⟨hunits, htokens⟩ := isValid_iff.1 hp
  by_contra hzero
  have hle : p.exactCost amount ≤ 0 := Nat.le_of_not_lt hzero
  rw [exactCost_le_iff htokens, Nat.mul_zero] at hle
  exact absurd (Nat.mul_pos h hunits) (Nat.not_lt.2 hle)

/-- Amounts bought apart do not cost less than together. -/
theorem exactCost_add_le (hp : 0 < p.tokens.val) (m n : Nat) :
    p.exactCost (m + n) ≤ p.exactCost m + p.exactCost n := by
  have hm : m * p.units.val ≤ p.tokens.val * p.exactCost m := (exactCost_le_iff hp).1 le_rfl
  have hn : n * p.units.val ≤ p.tokens.val * p.exactCost n := (exactCost_le_iff hp).1 le_rfl
  rw [exactCost_le_iff hp, Nat.add_mul, Nat.mul_add]
  exact Nat.add_le_add hm hn

/-- A cost that was computed is the exact one rounded up. -/
theorem costOf_ok {amount : Tokens} {cost : Units} (h : p.costOf amount = some cost) :
    0 < p.tokens.val ∧ cost.val = p.exactCost amount.val :=
  Quantity.mulDivCeil_ok h

/-- A cost overflows exactly if the product does. -/
theorem costOf_eq_none_iff (hp : 0 < p.tokens.val) {amount : Tokens} :
    p.costOf amount = none ↔ Quantity.limit ≤ amount.val * p.units.val :=
  Quantity.mulDivCeil_eq_none_iff hp

/-- The tokens for a budget are the exact quotient rounded down. -/
theorem tokensFor_ok {budget : Units} {amount : Tokens} (h : p.tokensFor budget = some amount) :
    0 < p.units.val ∧ amount.val = budget.val * p.tokens.val / p.units.val :=
  Quantity.mulDivFloor_ok h

theorem tokensFor_eq_none_iff (hp : 0 < p.units.val) {budget : Units} :
    p.tokensFor budget = none ↔ Quantity.limit ≤ budget.val * p.tokens.val :=
  Quantity.mulDivFloor_eq_none_iff hp

/-- Rounding down the amount and rounding up its cost fit together: a budget
buys the largest amount whose cost it covers. -/
theorem isGreatest_tokensFor {budget : Units} {amount : Tokens} (hp : 0 < p.tokens.val)
    (h : p.tokensFor budget = some amount) :
    IsGreatest {m | p.exactCost m ≤ budget.val} amount.val := by
  obtain ⟨hunits, hamount⟩ := tokensFor_ok h
  have hiff (m : Nat) : p.exactCost m ≤ budget.val ↔ m ≤ amount.val :=
    hamount ▸ galoisConnection_quotients hp hunits m budget.val
  exact ⟨(hiff _).2 le_rfl, fun m hm => (hiff m).1 hm⟩

end Price

/-! ## rates -/

namespace Rate

variable {r : Rate} {amount worth : Funds} {units requested : Units}

theorem toUnits_ok (h : r.toUnits amount = some units) :
    units.val = amount.val * r.numerator.val / r.denominator.val :=
  (Quantity.mulDivFloor_ok h).2

theorem toUnits_eq_none_iff (hr : r.isUsable = true) :
    r.toUnits amount = none ↔ Quantity.limit ≤ amount.val * r.numerator.val :=
  Quantity.mulDivFloor_eq_none_iff (isUsable_iff.1 hr).2

/-- What is kept for units is the least payment that is worth as much. -/
theorem isLeast_toFunds (h : r.toFunds units = some worth) :
    IsLeast {m | units.val * r.denominator.val ≤ m * r.numerator.val} worth.val := by
  obtain ⟨hnumerator, hworth⟩ := Quantity.mulDivCeil_ok h
  have hiff (m : Nat) : units.val * r.denominator.val ≤ m * r.numerator.val ↔ worth.val ≤ m := by
    rw [hworth, ceilDiv_le_iff_le_mul hnumerator, Nat.mul_comm m]
  exact ⟨(hiff _).2 le_rfl, fun m hm => (hiff m).1 hm⟩

/-- Units that a payment is worth can be turned back, into no more than the
payment. -/
theorem exists_toFunds (hr : r.isUsable = true) (h : r.toUnits amount = some requested)
    (hle : units.val ≤ requested.val) :
    ∃ worth, r.toFunds units = some worth ∧ worth.val ≤ amount.val :=
  Quantity.exists_mulDivCeil_of_le (isUsable_iff.1 hr).1 h hle

end Rate

/-! ## both together -/

/-- **Conversions are exact, and a Galois pair with the one back.**  They give the
quotient of the exact product, rounded down or up, and nothing just if the
divisor is zero or the product does not fit.  A price and a rate turn an amount
into the most that it covers, and turn that back into no more than the amount. -/
theorem conversions_exact :
    (∀ (s t : Scale) (a c : Quantity s) (b : Quantity t),
      (a.mulDivFloor b c).map Quantity.val =
        (if 0 < c.val ∧ a.val * b.val < Nat.pow 2 128 then
          some ⌊(a.val * b.val : ℚ) / c.val⌋₊ else none) ∧
      (a.mulDivCeil b c).map Quantity.val =
        if 0 < c.val ∧ a.val * b.val < Nat.pow 2 128 then
          some ⌈(a.val * b.val : ℚ) / c.val⌉₊ else none) ∧
    (∀ p : Price, p.isValid = true →
      Quantity.GaloisPair p.tokens p.units p.tokensFor p.costOf) ∧
    ∀ r : Rate, r.isUsable = true →
      Quantity.GaloisPair r.numerator r.denominator r.toUnits r.toFunds := by
  refine ⟨fun s t a c b => ⟨a.mulDivFloor_map_val c b, a.mulDivCeil_map_val c b⟩,
    fun p hp => ?_, fun r hr => ?_⟩
  · obtain ⟨hunits, htokens⟩ := Price.isValid_iff.1 hp
    exact Quantity.galoisPair htokens hunits
  · obtain ⟨hnumerator, hdenominator⟩ := Rate.isUsable_iff.1 hr
    exact Quantity.galoisPair hnumerator hdenominator

/-- Twenty-three units for seventeen tokens. -/
def Sample.price : Price := ⟨⟨23, by decide⟩, ⟨17, by decide⟩⟩

/-- Twenty-three coins are worth seventeen units. -/
def Sample.rate : Rate := ⟨⟨17, by decide⟩, ⟨23, by decide⟩, default⟩

/-- The largest budget that can be turned into tokens, seventeen of which make the
largest amount, is not exceeded on the way back; nor is a payment of eight coins,
which are worth five units. -/
theorem conversions_exact_largest_budget :
    Sample.price.isValid = true ∧ Sample.rate.isUsable = true ∧
      (∃ bought taken, Sample.price.tokensFor ⟨(Nat.pow 2 128 - 1) / 17, by decide⟩ = some bought ∧
        Sample.price.costOf bought = some taken ∧ taken.val ≤ (Nat.pow 2 128 - 1) / 17) ∧
      ∃ worth taken, Sample.rate.toUnits ⟨8, by decide⟩ = some worth ∧ worth.val = 5 ∧
        Sample.rate.toFunds worth = some taken ∧ taken.val ≤ 8 := by
  have hprice : Sample.price.isValid = true := by decide
  have hrate : Sample.rate.isUsable = true := by decide
  have hbought : Sample.price.tokensFor ⟨(Nat.pow 2 128 - 1) / 17, by decide⟩ =
      some ⟨(Nat.pow 2 128 - 1) / 23, by decide⟩ := by decide +kernel
  have hworth : Sample.rate.toUnits ⟨8, by decide⟩ = some ⟨5, by decide⟩ := by decide +kernel
  obtain ⟨taken, htaken, hle⟩ := (conversions_exact.2.1 Sample.price hprice).back _ _ hbought
  obtain ⟨taken', htaken', hle'⟩ := (conversions_exact.2.2 Sample.rate hrate).back _ _ hworth
  exact ⟨hprice, hrate, ⟨_, taken, hbought, htaken, hle⟩, _, taken', hworth, rfl, htaken', hle'⟩

end TokenSale
