import TokenSale.Wire.Sale

/-!
# TokenSale.Simulation.Script

What happens in a simulated sale: who may buy, and what is bought when.
-/

namespace TokenSale

open Json

/-- Somebody who may buy. -/
structure ScriptedInvestor where
  id : InvestorId
  investorClass : InvestorClass
  deriving DecidableEq

/-- A purchase and its time. -/
structure ScriptedPurchase where
  time : Instant
  request : PurchaseRequest
  deriving DecidableEq

/-- A script; purchases are made in the order they stand in, whatever their
times. -/
structure Script where
  investors : List ScriptedInvestor
  purchases : List ScriptedPurchase
  deriving DecidableEq

/-- Somebody who may buy. -/
def ScriptedInvestor.decode : Decoder ScriptedInvestor := fun v => do
  let r ← record [known "id" InvestorId.decode, known "class" InvestorClass.decode] v
  pure ⟨← required r "id" InvestorId.decode, ← required r "class" InvestorClass.decode⟩

/-- A request with its time under `at`. -/
def ScriptedPurchase.decode : Decoder ScriptedPurchase := fun v => do
  let r ← record (known "at" Instant.decode :: PurchaseRequest.members) v
  pure ⟨← required r "at" Instant.decode, ← PurchaseRequest.ofMembers r⟩

/-- A script; if it names no investors, nobody may buy. -/
def Script.decode : Decoder Script := fun v => do
  let r ← record [knownLast "investors" (decodeList ScriptedInvestor.decode),
    known "purchases" (decodeList ScriptedPurchase.decode)] v
  pure ⟨← withDefault r "investors" (decodeList ScriptedInvestor.decode) [],
    ← required r "purchases" (decodeList ScriptedPurchase.decode)⟩

end TokenSale
