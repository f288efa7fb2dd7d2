import TokenSale.Sale.Program

/-!
# TokenSale.Sale.Settlement

The effects of a committed purchase outside the sale, in their fixed order:
an event for every fill, the tokens, the payment, its event, and, if there is
something to refund, the refund and its event.  An attempt goes through those
that have not landed yet and stops at the first that fails.

* `script` — all effects of a purchase in order;
* `outstanding` — those that have not landed, by the progress on record;
* `settle` — one attempt.
-/

namespace TokenSale

/-- One effect of a purchase. -/
inductive SettlementStep where
  | recordFill (fill : Fill)
  | issue
  | forward
  | recordFunds
  | refund
  | recordRefund
  deriving DecidableEq

namespace SettlementProgress

/-- The progress once a step has landed. -/
def mark (p : SettlementProgress) : SettlementStep → SettlementProgress
  | .recordFill _ => { p with fillsRecorded := p.fillsRecorded + 1 }
  | .issue => { p with issued := true }
  | .forward => { p with forwarded := true }
  | .recordFunds => { p with fundsRecorded := true }
  | .refund => { p with refunded := true }
  | .recordRefund => { p with refundRecorded := true }

/-- The progress once no step is left. -/
def close (p : SettlementProgress) : SettlementProgress :=
  { p with refunded := true, refundRecorded := true }

end SettlementProgress

namespace PurchaseRecord

/-- The call that makes a step land; payments go to `destination`. -/
def effectOf (r : PurchaseRecord) (destination : String) : SettlementStep → Effect
  | .recordFill f =>
    .emit (.tokenPurchase r.purchaseId r.buyer r.beneficiary r.plan.currency f.tierIndex
      f.isDiscount f.tokens f.units f.price)
  | .issue => .issue r.purchaseId r.beneficiary r.plan.result.tokensAllocated
  | .forward => .forward r.purchaseId r.plan.currency r.plan.result.fundsConsumed destination
  | .recordFunds =>
    .emit (.fundsReceived r.purchaseId r.plan.currency r.plan.result.fundsConsumed destination)
  | .refund => .refund r.purchaseId r.plan.currency r.plan.result.fundsRefunded r.buyer
  | .recordRefund =>
    .emit (.refunded r.purchaseId r.buyer r.plan.currency r.plan.result.fundsRefunded)

/-- Whether part of the payment goes back. -/
def hasRefund (r : PurchaseRecord) : Bool := !r.plan.result.fundsRefunded.isZero

/-- All steps of a purchase in order. -/
def script (r : PurchaseRecord) : List SettlementStep :=
  r.plan.fills.map .recordFill ++ [.issue, .forward, .recordFunds] ++
    if r.hasRefund then [.refund, .recordRefund] else []

/-- The steps that have not landed. -/
def outstanding (r : PurchaseRecord) : List SettlementStep :=
  let p := r.settlement
  (r.plan.fills.drop p.fillsRecorded).map .recordFill ++
    (if p.issued then [] else [.issue]) ++
    (if p.forwarded then [] else [.forward]) ++
    (if p.fundsRecorded then [] else [.recordFunds]) ++
    if r.hasRefund then
      (if p.refunded then [] else [.refund]) ++
        (if p.refundRecorded then [] else [.recordRefund])
    else []

end PurchaseRecord

/-- Takes steps in order until one fails; the progress reached, and the failure. -/
def runSteps (r : PurchaseRecord) (destination : String) :
    List SettlementStep → SettlementProgress →
      Program (SettlementProgress × Option CollaboratorError)
  | [], p => .done (p.close, none)
  | s :: rest, p =>
    .call (.effect (r.effectOf destination s)) fun
      | .ok () => runSteps r destination rest (p.mark s)
      | .error e => .done (p, some e)

/-- What a caller is told after an attempt. -/
def SettlementStatus.ofFailure : Option CollaboratorError → SettlementStatus
  | none => .complete
  | some e => .pending e.message

/-- One attempt at the settlement of a purchase. -/
def settle (id : Uuid) : Program (Except SaleError SettlementStatus) := do
  match ← Program.attempt fun b _ => b.beginSettlement id with
  | .error e => pure (.error e)
  | .ok (.idle status) => pure (.ok status)
  | .ok (.started record destination) =>
    let (progress, failure) ← runSteps record destination record.outstanding record.settlement
    Program.atomically fun b _ => ((), b.endSettlement id progress failure)
    pure (.ok (.ofFailure failure))

end TokenSale
