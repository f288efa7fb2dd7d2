import TokenSale.Price
import TokenSale.Quantity.Text

/-!
# TokenSale.Price.Text

The reading of prices: `3` is three units for one token, `7/2` is seven units
for two tokens.
-/

namespace TokenSale

/-- The parts of a text before and after the first `c`, if there is one. -/
def Text.splitOnce (c : Char) (cs : List Char) : Option (List Char × List Char) :=
  match cs.dropWhile (· ≠ c) with
  | [] => none
  | _ :: after => some (cs.takeWhile (· ≠ c), after)

namespace Price

/-- The price that a text spells; nothing unless both sides are above zero. -/
def ofChars? (cs : List Char) : Option Price :=
  match Text.splitOnce '/' cs with
  | some (u, t) => do ofSides? (← Quantity.ofChars? u) (← Quantity.ofChars? t)
  | none => do perToken? (← Quantity.ofChars? cs)

/-- `ofChars?` on strings. -/
def ofText? (s : String) : Option Price := ofChars? s.toList

end Price

end TokenSale
