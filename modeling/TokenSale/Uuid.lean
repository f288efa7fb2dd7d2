import TokenSale.Digest.Sha1
import TokenSale.Digest.Hex
import TokenSale.Directory
import TokenSale.Text.Hex
import TokenSale.Text.Utf8

/-!
# TokenSale.Uuid

Identifiers of 128 bits.  They are written in lower-case hex with hyphens and
read with or without them; an identifier can be derived from another one and
a name, so that the same name always gives the same identifier.
-/

namespace TokenSale

/-- A universally unique identifier. -/
structure Uuid where
  value : Nat
  value_lt : value < Nat.pow 2 128
  deriving DecidableEq

namespace Uuid

instance : OrderedKey Uuid :=
  .ofNat value fun {a b} h => by cases a; cases b; cases h; rfl

/-- The identifier whose bytes, the highest first, are the last sixteen given. -/
def ofBytes (bs : List UInt8) : Uuid :=
  ⟨bs.foldl (fun n b => 256 * n + b.toNat) 0 % Nat.pow 2 128, Nat.mod_lt _ (by decide)⟩

/-- The sixteen bytes, the highest first. -/
def bytes (u : Uuid) : List UInt8 := Digest.bigEndian 16 u.value

instance : Inhabited Uuid := ⟨ofBytes []⟩

/-- Sets the version and the variant of an identifier derived from a name. -/
def stampNameBased (bs : List UInt8) : List UInt8 :=
  bs.mapIdx fun i b =>
    if i = 6 then (b &&& 0x0f) ||| 0x50
    else if i = 8 then (b &&& 0x3f) ||| 0x80
    else b

/-- The identifier of a name within a space of names (RFC 4122, version 5). -/
def derive (space : Uuid) (name : String) : Uuid :=
  ofBytes (stampNameBased ((Digest.Sha1.hash (space.bytes ++ Text.utf8 name)).take 16))

/-! ## written forms -/

/-- The written form: 8, 4, 4, 4 and 12 hex digits with hyphens between. -/
def chars (u : Uuid) : List Char :=
  let ds := Digest.hex u.bytes
  ds.take 8 ++ ['-'] ++ (ds.drop 8).take 4 ++ ['-'] ++ (ds.drop 12).take 4 ++ ['-'] ++
    (ds.drop 16).take 4 ++ ['-'] ++ ds.drop 20

/-- `chars` as a string. -/
def text (u : Uuid) : String := String.ofList u.chars

instance : ToString Uuid := ⟨text⟩

/-- Thirty-two hex digits. -/
def ofDigits? (cs : List Char) : Option Uuid :=
  if cs.length = 32 then
    (Text.hexNumber? cs).bind fun n => if h : n < Nat.pow 2 128 then some ⟨n, h⟩ else none
  else none

/-- Digits with hyphens after the eighth, twelfth, sixteenth and twentieth. -/
def ofHyphenated? (cs : List Char) : Option Uuid :=
  if cs.length = 36 ∧ cs[8]? = some '-' ∧ cs[13]? = some '-' ∧ cs[18]? = some '-' ∧
      cs[23]? = some '-' then
    ofDigits? (cs.take 8 ++ (cs.drop 9).take 4 ++ (cs.drop 14).take 4 ++ (cs.drop 19).take 4 ++
      cs.drop 24)
  else none

/-- Reads plain digits, the written form, the written form in braces, or a
resource name. -/
def ofChars? (cs : List Char) : Option Uuid :=
  if cs.length = 32 then ofDigits? cs
  else if cs.length = 36 then ofHyphenated? cs
  else if cs.length = 38 ∧ cs.head? = some '\x7b' ∧ cs.getLast? = some '\x7d' then
    ofHyphenated? ((cs.drop 1).take 36)
  else if cs.length = 45 ∧ cs.take 9 = "urn:uuid:".toList then ofHyphenated? (cs.drop 9)
  else none

/-- `ofChars?` on strings. -/
def ofText? (s : String) : Option Uuid := ofChars? s.toList

end Uuid

end TokenSale
