import TokenSale.Allocation.Basic
import TokenSale.Sale.Event
import TokenSale.Sale.State

/-!
# TokenSale.Sale.Record

A purchase from the request to the record that the sale keeps of it.

* `PurchaseRequest` — what a buyer asks for;
* `PurchaseRecord` — what was committed, and how far its settlement has come;
* `SettlementProgress` — which effects outside the sale have landed;
* `PurchaseReceipt`, `SaleStats` — what callers are told.
-/

namespace TokenSale

/-- What a buyer asks for. -/
structure PurchaseRequest where
  /-- The caller's own name for the purchase; one is derived if it is absent. -/
  purchaseId : Option Uuid
  /-- Pays, and receives any refund. -/
  buyer : InvestorId
  /-- Receives the tokens, if not the buyer. -/
  beneficiary : Option InvestorId
  currency : Currency
  amount : Funds
  minTokens : Option Tokens
  deriving DecidableEq

/-- Who receives the tokens and whose limit counts. -/
def PurchaseRequest.recipient (r : PurchaseRequest) : InvestorId := r.beneficiary.getD r.buyer

/-- Which effects of a committed purchase have landed. -/
structure SettlementProgress where
  /-- Fills whose events were accepted. -/
  fillsRecorded : Nat
  issued : Bool
  forwarded : Bool
  /-- The event of the payment was accepted. -/
  fundsRecorded : Bool
  refunded : Bool
  /-- The event of the refund was accepted, or there is nothing to refund. -/
  refundRecorded : Bool
  /-- Attempts so far.  The program counts them in 32 bits; an attempt adds one
  and calls the world outside, so no run comes to `2 ^ 32` of them. -/
  attempts : Nat
  lastError : Option String
  /-- An attempt is under way. -/
  inFlight : Bool
  deriving DecidableEq

namespace SettlementProgress

/-- Nothing has landed yet. -/
def initial : SettlementProgress := ⟨0, false, false, false, false, false, 0, none, false⟩

/-- Everything has landed for a purchase with that many fills. -/
def isComplete (p : SettlementProgress) (fills : Nat) : Bool :=
  fills ≤ p.fillsRecorded && p.issued && p.forwarded && p.fundsRecorded && p.refunded &&
    p.refundRecorded

end SettlementProgress

/-- What a caller is told about a settlement. -/
inductive SettlementStatus where
  | complete
  /-- Committed, but some effects are still to land. -/
  | pending (reason : String)
  deriving DecidableEq

/-- A committed purchase. -/
structure PurchaseRecord where
  purchaseId : Uuid
  buyer : InvestorId
  beneficiary : InvestorId
  investorClass : InvestorClass
  rate : Rate
  plan : AllocationPlan
  committedAt : Instant
  settlement : SettlementProgress
  deriving DecidableEq

/-- Whether every effect of the purchase has landed. -/
def PurchaseRecord.isSettled (r : PurchaseRecord) : Bool :=
  r.settlement.isComplete r.plan.fills.length

/-- What a buyer is told about a committed purchase. -/
structure PurchaseReceipt where
  purchaseId : Uuid
  plan : AllocationPlan
  settlement : SettlementStatus
  deriving DecidableEq

/-- The sums of a sale at a moment. -/
structure SaleStats where
  saleId : Option Uuid
  state : SaleState
  paused : Bool
  finalized : Bool
  version : Nat
  tokensSold : Tokens
  tokensRemaining : Tokens
  unitsRaised : Units
  fundsRaised : Directory Currency Funds
  tokensSoldByCurrency : Directory Currency Tokens
  investorCount : Nat
  purchaseCount : Nat
  pendingSettlements : Nat
  currentTier : Option Nat

end TokenSale
