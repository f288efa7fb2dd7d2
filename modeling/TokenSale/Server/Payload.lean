import TokenSale.Wire.Values

/-!
# TokenSale.Server.Payload

What administrators send in the body of a request.
-/

namespace TokenSale

open Json

/-- Who may buy, or may buy no longer. -/
structure AllowanceUpdate where
  investor : InvestorId
  investorClass : InvestorClass
  allowed : Bool
  deriving DecidableEq

/-- A new rate of a currency; it counts from when it is received. -/
structure RateUpdate where
  currency : Currency
  quote : Quote
  deriving DecidableEq

/-- A limit of its own for an investor. -/
structure LimitUpdate where
  investor : InvestorId
  limit : Units
  deriving DecidableEq

/-- Who may buy; `allowed` may be missing. -/
def AllowanceUpdate.decode : Decoder AllowanceUpdate := fun v => do
  let r ← record [known "investor" InvestorId.decode, known "class" InvestorClass.decode,
    knownLast "allowed" decodeBool] v
  pure ⟨← required r "investor" InvestorId.decode, ← required r "class" InvestorClass.decode,
    ← withDefault r "allowed" decodeBool true⟩

/-- A currency and the two sides of its rate. -/
def RateUpdate.decode : Decoder RateUpdate := fun v => do
  let r ← record [known "currency" Currency.decode,
    known "numerator" (Quantity.decode (s := .units)),
    known "denominator" (Quantity.decode (s := .funds))] v
  pure ⟨← required r "currency" Currency.decode,
    ⟨← required r "numerator" Quantity.decode, ← required r "denominator" Quantity.decode⟩⟩

/-- An investor and a limit. -/
def LimitUpdate.decode : Decoder LimitUpdate := fun v => do
  let r ← record [known "investor" InvestorId.decode,
    known "limit" (Quantity.decode (s := .units))] v
  pure ⟨← required r "investor" InvestorId.decode, ← required r "limit" Quantity.decode⟩

end TokenSale
