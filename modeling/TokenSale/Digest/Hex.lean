import TokenSale.Digest.Sha256
import TokenSale.Text.Utf8

/-!
# TokenSale.Digest.Hex

Bytes in lower-case hexadecimal, two digits each.
-/

namespace TokenSale.Digest

/-- The two digits of a byte. -/
def hexByte (b : UInt8) : List Char :=
  [Nat.digitChar (b.toNat / 16), Nat.digitChar (b.toNat % 16)]

/-- The digits of a list of bytes. -/
def hex (bs : List UInt8) : List Char := bs.flatMap hexByte

/-- The SHA-256 of a text, in hex. -/
def sha256Hex (s : String) : String := String.ofList (hex (Sha256.hash (Text.utf8 s)))

end TokenSale.Digest
