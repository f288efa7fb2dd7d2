/-!
# TokenSale.Quantity

Whole amounts on the three scales of a sale.  A purchase moves between the
unit of account, the token on sale and the currency that is paid; an amount
carries its scale in its type, so two scales never mix, and its bound in a
proof field, so every amount fits in 128 bits.

* `mulDivFloor`, `mulDivCeil` — the only conversions between scales: multiply
  first, divide once, and give up when the product leaves 128 bits;
* `add?`, `sub?` — exact or nothing;
* `addClamped`, `subClamped` — clamped to the range, for totals in reports.
-/

namespace TokenSale

/-- What an amount is counted in. -/
inductive Scale where
  /-- Base units of the unit of account. -/
  | units
  /-- Base units of the token on sale. -/
  | tokens
  /-- Base units of a payment currency. -/
  | funds
  deriving DecidableEq

/-- Amounts stay below this bound. -/
abbrev Quantity.limit : Nat := Nat.pow 2 128

/-- A whole amount on the scale `s`. -/
structure Quantity (s : Scale) where
  val : Nat
  val_lt : val < Quantity.limit
  deriving DecidableEq

/-- Unit-of-account base units. -/
abbrev Units := Quantity .units

/-- Sale-token base units. -/
abbrev Tokens := Quantity .tokens

/-- Payment-currency base units; their worth depends on the currency. -/
abbrev Funds := Quantity .funds

namespace Quantity

variable {s t : Scale}

@[ext] theorem ext {a b : Quantity s} (h : a.val = b.val) : a = b := by
  cases a; cases b; cases h; rfl

instance : LE (Quantity s) := ⟨fun a b => a.val ≤ b.val⟩

instance : LT (Quantity s) := ⟨fun a b => a.val < b.val⟩

instance (a b : Quantity s) : Decidable (a ≤ b) := inferInstanceAs (Decidable (a.val ≤ b.val))

instance (a b : Quantity s) : Decidable (a < b) := inferInstanceAs (Decidable (a.val < b.val))

theorem le_iff {a b : Quantity s} : a ≤ b ↔ a.val ≤ b.val := Iff.rfl

theorem lt_iff {a b : Quantity s} : a < b ↔ a.val < b.val := Iff.rfl

/-- The amount `n`, if it fits. -/
def ofNat? (n : Nat) : Option (Quantity s) :=
  if h : n < limit then some ⟨n, h⟩ else none

/-- Nothing at all. -/
def zero : Quantity s := ⟨0, by decide⟩

/-- A single base unit. -/
def one : Quantity s := ⟨1, by decide⟩

/-- The largest amount. -/
def max : Quantity s := ⟨limit - 1, by decide⟩

instance : Inhabited (Quantity s) := ⟨zero⟩

/-- Whether the amount is zero. -/
def isZero (a : Quantity s) : Bool := a.val == 0

/-- The smaller of two amounts. -/
def least (a b : Quantity s) : Quantity s := if a ≤ b then a else b

/-- The sum, if it fits. -/
def add? (a b : Quantity s) : Option (Quantity s) := ofNat? (a.val + b.val)

/-- The difference, if it is not negative. -/
def sub? (a b : Quantity s) : Option (Quantity s) :=
  if b ≤ a then some ⟨a.val - b.val, Nat.lt_of_le_of_lt (Nat.sub_le _ _) a.val_lt⟩ else none

/-- The sum, or the largest amount if the sum does not fit. -/
def addClamped (a b : Quantity s) : Quantity s := (a.add? b).getD max

/-- The difference, or zero if it would be negative. -/
def subClamped (a b : Quantity s) : Quantity s :=
  ⟨a.val - b.val, Nat.lt_of_le_of_lt (Nat.sub_le _ _) a.val_lt⟩

/-- `a · b / c` rounded down; nothing if `c` is zero or `a · b` does not fit. -/
def mulDivFloor (a : Quantity s) (b : Quantity t) (c : Quantity s) : Option (Quantity t) :=
  if c.isZero then none
  else if a.val * b.val < limit then ofNat? (a.val * b.val / c.val)
  else none

/-- `a · b / c` rounded up; nothing if `c` is zero or `a · b` does not fit. -/
def mulDivCeil (a : Quantity s) (b : Quantity t) (c : Quantity s) : Option (Quantity t) :=
  if c.isZero then none
  else if a.val * b.val < limit then
    if a.val * b.val % c.val = 0 then ofNat? (a.val * b.val / c.val)
    else ofNat? (a.val * b.val / c.val + 1)
  else none

instance : ToString (Quantity s) := ⟨fun a => toString a.val⟩

/-! ## what the operations compute -/

@[simp] theorem val_zero : (zero : Quantity s).val = 0 := rfl

@[simp] theorem val_one : (one : Quantity s).val = 1 := rfl

@[simp] theorem isZero_iff {a : Quantity s} : a.isZero = true ↔ a.val = 0 := by simp [isZero]

@[simp] theorem isZero_eq_false_iff {a : Quantity s} : a.isZero = false ↔ 0 < a.val := by
  simp [isZero, Nat.pos_iff_ne_zero]

/-- A number that fits is kept as it is. -/
theorem ofNat?_eq_some_iff {n : Nat} {a : Quantity s} : ofNat? n = some a ↔ a.val = n := by
  unfold ofNat?
  split
  · constructor
    · intro h; cases h; rfl
    · intro h; cases a; cases h; rfl
  · rename_i hn
    constructor
    · intro h; cases h
    · intro h; exact absurd (h ▸ a.val_lt) hn

/-- The numbers that do not fit are those from the limit on. -/
theorem ofNat?_eq_none_iff {n : Nat} : (ofNat? n : Option (Quantity s)) = none ↔ limit ≤ n := by
  unfold ofNat?
  split <;> simp_all

@[simp] theorem ofNat?_val (a : Quantity s) : ofNat? a.val = some a :=
  ofNat?_eq_some_iff.2 rfl

/-- A sum that fits is exact. -/
theorem add?_eq_some_iff {a b c : Quantity s} : a.add? b = some c ↔ c.val = a.val + b.val :=
  ofNat?_eq_some_iff

/-- It overflows exactly at the limit. -/
theorem add?_eq_none_iff {a b : Quantity s} : a.add? b = none ↔ limit ≤ a.val + b.val :=
  ofNat?_eq_none_iff

/-- A difference exists if it is not negative, and is exact. -/
theorem sub?_eq_some_iff {a b c : Quantity s} :
    a.sub? b = some c ↔ b.val ≤ a.val ∧ c.val = a.val - b.val := by
  unfold sub?
  split
  · rename_i h
    constructor
    · intro e; cases e; exact ⟨h, rfl⟩
    · intro ⟨_, e⟩; exact congrArg some (ext e.symm)
  · rename_i h
    constructor
    · intro e; cases e
    · intro ⟨e, _⟩; exact absurd e h

/-- A result is the exact quotient rounded down, by a divisor that is not zero. -/
theorem mulDivFloor_ok {a c : Quantity s} {b d : Quantity t} (h : a.mulDivFloor b c = some d) :
    0 < c.val ∧ d.val = a.val * b.val / c.val := by
  unfold mulDivFloor at h
  split at h
  · contradiction
  · rename_i hzero
    split at h
    · exact ⟨Nat.pos_of_ne_zero (by simpa using hzero), ofNat?_eq_some_iff.1 h⟩
    · contradiction

@[simp] theorem val_subClamped (a b : Quantity s) : (a.subClamped b).val = a.val - b.val := rfl

theorem val_least (a b : Quantity s) : (a.least b).val = min a.val b.val := by
  unfold least
  split
  · rename_i h; exact (Nat.min_eq_left h).symm
  · rename_i h; exact (Nat.min_eq_right (Nat.le_of_lt (Nat.lt_of_not_le h))).symm

end Quantity

end TokenSale
