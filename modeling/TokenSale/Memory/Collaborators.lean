import TokenSale.Sale.Program
import TokenSale.Wire.Values

/-!
# TokenSale.Memory.Collaborators

Services kept in memory.  Each one is deterministic and can be told to fail
its next calls; a failed call changes nothing but the count of failures that
are still to come.

* `AllowList` — compliance by name;
* `Issuance` — balances of the token, once for every issuance id;
* `Transfers` — payments and refunds, the first for every purchase id;
* `EventLog` — the events that were accepted.
-/

namespace TokenSale

/-- How many of the next calls fail. -/
structure Failures where
  left : Nat
  deriving DecidableEq

namespace Failures

/-- No call fails. -/
def none : Failures := ⟨0⟩

/-- Whether this call fails, and what is left. -/
def take (f : Failures) : Bool × Failures := (f.left != 0, ⟨f.left - 1⟩)

end Failures

/-! ## compliance -/

/-- The investors that may buy, with their classes. -/
structure AllowList where
  allowed : Directory InvestorId InvestorClass
  failures : Failures

namespace AllowList

/-- Nobody may buy. -/
def empty : AllowList := ⟨.empty, .none⟩

/-- Lets an investor buy. -/
def allow (l : AllowList) (investor : InvestorId) (c : InvestorClass) : AllowList :=
  { l with allowed := l.allowed.insert investor c }

/-- Lets an investor buy no longer. -/
def revoke (l : AllowList) (investor : InvestorId) : AllowList :=
  { l with allowed := l.allowed.erase investor }

/-- What the list says about an investor; those unknown to it are refused. -/
def verdict (l : AllowList) (investor : InvestorId) : Verdict :=
  match l.allowed.get? investor with
  | some c => ⟨true, c⟩
  | none => ⟨false, .nonAccredited⟩

/-- One call. -/
def check (l : AllowList) (investor : InvestorId) :
    Except CollaboratorError Verdict × AllowList :=
  match l.failures.take with
  | (true, failures) => (.error ⟨.compliance, "injected failure"⟩, { l with failures })
  | (false, _) => (.ok (l.verdict investor), l)

end AllowList

/-! ## tokens -/

/-- Who was issued how many tokens. -/
structure Issuance where
  issuances : Directory Uuid (InvestorId × Tokens)
  balances : Directory InvestorId Tokens
  failures : Failures

namespace Issuance

/-- Nothing was issued. -/
def empty : Issuance := ⟨.empty, .empty, .none⟩

/-- What an investor holds. -/
def balance (l : Issuance) (investor : InvestorId) : Tokens :=
  (l.balances.get? investor).getD .zero

/-- All tokens issued, or the largest amount if they do not fit. -/
def total (l : Issuance) : Tokens := l.balances.values.foldl .addClamped .zero

/-- Issues tokens once for an id: the same call again succeeds and changes
nothing, a different one under the same id is refused. -/
def record (l : Issuance) (id : Uuid) (recipient : InvestorId) (amount : Tokens) :
    Except CollaboratorError Issuance :=
  match l.issuances.get? id with
  | some earlier =>
    if earlier = (recipient, amount) then .ok l
    else .error ⟨.tokenLedger, s!"issuance {id} replayed with different parameters"⟩
  | none =>
    match (l.balance recipient).add? amount with
    | none => .error ⟨.tokenLedger, "balance overflow"⟩
    | some next =>
      .ok { l with
        balances := l.balances.insert recipient next
        issuances := l.issuances.insert id (recipient, amount) }

/-- One call. -/
def issue (l : Issuance) (id : Uuid) (recipient : InvestorId) (amount : Tokens) :
    Except CollaboratorError Unit × Issuance :=
  match l.failures.take with
  | (true, failures) => (.error ⟨.tokenLedger, "injected failure"⟩, { l with failures })
  | (false, _) =>
    match l.record id recipient amount with
    | .ok l => (.ok (), l)
    | .error e => (.error e, l)

end Issuance

/-! ## payments -/

/-- A payment that was made. -/
structure Transfer where
  purchaseId : Uuid
  currency : Currency
  amount : Funds
  /-- Where it went: a destination, or an investor for a refund. -/
  counterparty : String
  deriving DecidableEq

/-- A payment as a document. -/
def Transfer.encode (t : Transfer) : Json :=
  .obj [("purchase_id", t.purchaseId.encode), ("currency", t.currency.encode),
    ("amount", t.amount.encode), ("counterparty", .str t.counterparty)]

/-- The payments and refunds that were made. -/
structure Transfers where
  forwards : Directory Uuid Transfer
  refunds : Directory Uuid Transfer
  forwardFailures : Failures
  refundFailures : Failures

namespace Transfers

/-- No payment was made. -/
def empty : Transfers := ⟨.empty, .empty, .none, .none⟩

/-- Keeps the first transfer of a purchase. -/
def keepFirst (d : Directory Uuid Transfer) (t : Transfer) : Directory Uuid Transfer :=
  if d.contains t.purchaseId then d else d.insert t.purchaseId t

/-- One call to pass a payment on. -/
def forward (l : Transfers) (t : Transfer) : Except CollaboratorError Unit × Transfers :=
  match l.forwardFailures.take with
  | (true, forwardFailures) =>
    (.error ⟨.settlement, "forward: injected failure"⟩, { l with forwardFailures })
  | (false, _) => (.ok (), { l with forwards := keepFirst l.forwards t })

/-- One call to refund a payment. -/
def refund (l : Transfers) (t : Transfer) : Except CollaboratorError Unit × Transfers :=
  match l.refundFailures.take with
  | (true, refundFailures) =>
    (.error ⟨.settlement, "refund: injected failure"⟩, { l with refundFailures })
  | (false, _) => (.ok (), { l with refunds := keepFirst l.refunds t })

/-- All payments passed on in a currency. -/
def forwardedTotal (l : Transfers) (c : Currency) : Funds :=
  ((l.forwards.values.filter fun t => t.currency = c).map Transfer.amount).foldl
    .addClamped .zero

end Transfers

/-! ## events -/

/-- The events that were accepted, the first one first. -/
structure EventLog where
  events : List SaleEvent
  failures : Failures
  deriving DecidableEq

namespace EventLog

/-- No event was accepted. -/
def empty : EventLog := ⟨[], .none⟩

/-- One call; a rejected event is not kept. -/
def emit (l : EventLog) (e : SaleEvent) : Except CollaboratorError Unit × EventLog :=
  match l.failures.take with
  | (true, failures) => (.error ⟨.eventSink, "injected failure"⟩, { l with failures })
  | (false, _) => (.ok (), { l with events := l.events ++ [e] })

end EventLog

end TokenSale
