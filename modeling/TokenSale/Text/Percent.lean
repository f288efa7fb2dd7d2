import TokenSale.Text.Hex
import TokenSale.Text.Utf8

/-!
# TokenSale.Text.Percent

Percent encoding: a byte of a text may be written as `%` and two hex digits.
A `%` that no two hex digits follow stands for itself.
-/

namespace TokenSale.Text

/-- The bytes that a percent-encoded text stands for. -/
def percentBytes : List Char → List UInt8
  | [] => []
  | '%' :: a :: b :: rest =>
    match hexNumber? [a, b] with
    | some n => UInt8.ofNat n :: percentBytes rest
    | none => utf8 "%" ++ percentBytes (a :: b :: rest)
  | c :: rest => utf8 (String.ofList [c]) ++ percentBytes rest

/-- The text that a percent-encoded one stands for, if its bytes spell one. -/
def percentDecode? (s : String) : Option String := ofUtf8? (percentBytes s.toList)

end TokenSale.Text
