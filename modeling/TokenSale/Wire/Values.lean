import TokenSale.Json.Decode
import TokenSale.Price
import TokenSale.Quantity.Text
import TokenSale.Rate.Basic
import TokenSale.Uuid

/-!
# TokenSale.Wire.Values

The JSON forms of amounts, names, times, prices and rates.  Amounts are
written as decimal strings, since other programs keep integers only up to 53
bits; they are read from strings and from integers.
-/

namespace TokenSale

open Json

/-! ## amounts -/

/-- An amount as a decimal string. -/
def Quantity.encode {s : Scale} (a : Quantity s) : Json := .str (toString a)

/-- An amount from a string or an integer. -/
def Quantity.decode {s : Scale} : Decoder (Quantity s)
  | .str text =>
    match Quantity.ofText? text with
    | some a => .ok a
    | none => .error (.badQuantity text)
  | .int n =>
    if n < 0 then .error (.negativeQuantity n) else orUnexpected (Quantity.ofNat? n.toNat)
  | _ => .error .unexpected

/-! ## names -/

/-- An identity as a string. -/
def InvestorId.encode (i : InvestorId) : Json := .str i.name

/-- An identity, as it is written. -/
def InvestorId.decode : Decoder InvestorId := fun v => (decodeString v).map .mk

/-- A currency by its code. -/
def Currency.encode (c : Currency) : Json := .str c.code

/-- A currency by its code in any spelling. -/
def Currency.decode : Decoder Currency := fun v => (decodeString v).map .ofText

namespace InvestorClass

/-- The wire name of a class. -/
def name : InvestorClass → String
  | accredited => "accredited"
  | nonAccredited => "non_accredited"

/-- The class of a wire name. -/
def ofName? (s : String) : Option InvestorClass :=
  [accredited, nonAccredited].find? fun c => c.name = s

/-- A class by its name. -/
def encode (c : InvestorClass) : Json := .str c.name

/-- A class by its name. -/
def decode : Decoder InvestorClass := decodeName ofName?

end InvestorClass

/-- An identifier in its written form. -/
def Uuid.encode (u : Uuid) : Json := .str u.text

/-- An identifier in any of its forms. -/
def Uuid.decode : Decoder Uuid := decodeText Uuid.ofText?

/-- A time in UTC. -/
def Instant.encode (t : Instant) : Json := .str t.text

/-- A time with any offset. -/
def Instant.decode : Decoder Instant := decodeText Instant.ofText?

/-! ## prices and rates -/

/-- A price by its two sides. -/
def Price.encode (p : Price) : Json :=
  .obj [("units", p.units.encode), ("tokens", p.tokens.encode)]

/-- A price by its two sides, zero or not; without tokens it is for one. -/
def Price.decode : Decoder Price := fun v => do
  let r ← record [known "units" (Quantity.decode (s := .units)),
    knownLast "tokens" (Quantity.decode (s := .tokens))] v
  pure ⟨← required r "units" Quantity.decode, ← withDefault r "tokens" Quantity.decode .one⟩

/-- A rate by its two sides and its time. -/
def Rate.encode (r : Rate) : Json :=
  .obj [("numerator", r.numerator.encode), ("denominator", r.denominator.encode),
    ("as_of", r.asOf.encode)]

/-- A rate by its two sides and its time. -/
def Rate.decode : Decoder Rate := fun v => do
  let r ← record [known "numerator" (Quantity.decode (s := .units)),
    known "denominator" (Quantity.decode (s := .funds)), known "as_of" Instant.decode] v
  pure ⟨← required r "numerator" Quantity.decode, ← required r "denominator" Quantity.decode,
    ← required r "as_of" Instant.decode⟩

/-- A quote by its two sides. -/
def Quote.encode (q : Quote) : Json :=
  .obj [("numerator", q.numerator.encode), ("denominator", q.denominator.encode)]

/-- A quote by its two sides. -/
def Quote.decode : Decoder Quote := fun v => do
  let r ← record [known "numerator" (Quantity.decode (s := .units)),
    known "denominator" (Quantity.decode (s := .funds))] v
  pure ⟨← required r "numerator" Quantity.decode, ← required r "denominator" Quantity.decode⟩

end TokenSale
