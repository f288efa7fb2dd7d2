import TokenSale.Quantity
import TokenSale.Text.Blank

/-!
# TokenSale.Quantity.Text

The written form of amounts: decimal digits.  On reading, blanks at both ends
are passed over, underscores may stand anywhere as separators, and leading
zeros are allowed.
-/

namespace TokenSale.Quantity

variable {s : Scale}

/-- The amount that a text spells; nothing if it is not made of digits or
does not fit. -/
def ofChars? (cs : List Char) : Option (Quantity s) :=
  let ds := (Text.trim cs).filter (· ≠ '_')
  if ds.isEmpty || !ds.all Char.isDigit then none else ofNat? (Nat.ofDigitChars 10 ds 0)

/-- `ofChars?` on strings. -/
def ofText? (s' : String) : Option (Quantity s) := ofChars? s'.toList

end TokenSale.Quantity
