import TokenSale.Quantity

/-!
# TokenSale.Price

The price of a tier as an exact ratio: `units` base units of account buy
`tokens` base units of the token.  Both conversions round for the sale: a
budget buys only whole tokens that it pays for in full, and a token amount
never costs less than its exact worth.

* `tokensFor` — what a budget buys, rounded down;
* `costOf` — what a token amount costs, rounded up;
* `compare?` — which of two ratios is larger, by cross multiplication.
-/

namespace TokenSale

/-- `units` unit-of-account base units buy `tokens` token base units. -/
structure Price where
  units : Units
  tokens : Tokens
  deriving DecidableEq

namespace Price

/-- A price with both sides above zero. -/
def ofSides? (units : Units) (tokens : Tokens) : Option Price :=
  if units.isZero || tokens.isZero then none else some ⟨units, tokens⟩

/-- A whole price for one token base unit. -/
def perToken? (units : Units) : Option Price := ofSides? units .one

/-- Both sides are above zero. -/
def isValid (p : Price) : Bool := !p.units.isZero && !p.tokens.isZero

/-- Token base units that `budget` buys, rounded down. -/
def tokensFor (p : Price) (budget : Units) : Option Tokens :=
  budget.mulDivFloor p.tokens p.units

/-- What `amount` token base units cost, rounded up. -/
def costOf (p : Price) (amount : Tokens) : Option Units :=
  amount.mulDivCeil p.units p.tokens

/-- How two prices compare as ratios; nothing if a cross product does not fit. -/
def compare? (p q : Price) : Option Ordering :=
  if p.units.val * q.tokens.val < Quantity.limit ∧ q.units.val * p.tokens.val < Quantity.limit then
    some (compare (p.units.val * q.tokens.val) (q.units.val * p.tokens.val))
  else none

/-- The written form: `3` is three units for one token, `7/2` is seven units
for two tokens. -/
def text (p : Price) : String :=
  if p.tokens = .one then toString p.units else s!"{p.units}/{p.tokens}"

instance : ToString Price := ⟨text⟩

/-! ## validity -/

theorem isValid_iff {p : Price} : p.isValid = true ↔ 0 < p.units.val ∧ 0 < p.tokens.val := by
  simp [isValid]

/-- Two sides make a price exactly if it is valid. -/
theorem ofSides?_eq_some_iff {u : Units} {t : Tokens} {p : Price} :
    ofSides? u t = some p ↔ p = ⟨u, t⟩ ∧ p.isValid = true := by
  unfold ofSides?
  split
  · rename_i h
    constructor
    · intro e; cases e
    · intro ⟨e, hp⟩
      subst e
      simp only [isValid, Bool.and_eq_true, Bool.not_eq_true'] at hp
      simp only [hp.1, hp.2, Bool.or_self] at h
      cases h
  · rename_i h
    simp only [Bool.or_eq_true, not_or, Bool.not_eq_true] at h
    constructor
    · intro e; cases e; exact ⟨rfl, by simp only [isValid, h.1, h.2]; rfl⟩
    · intro ⟨e, _⟩; exact congrArg some e.symm

end Price

end TokenSale
