import TokenSale.Memory.Sink
import TokenSale.Sale.Operations

/-!
# TokenSale.Memory.World

A sale together with everything it calls upon, kept in memory.

* `World.serve` — answers a call;
* `World.run` — runs an operation from start to end.
-/

namespace TokenSale

/-- A sale, its clock and its services. -/
structure World where
  book : Book
  now : Instant
  allowList : AllowList
  rates : RateTable
  /-- How many of the next questions for a rate fail. -/
  rateFailures : Failures
  issuance : Issuance
  transfers : Transfers
  sinks : List Sink

namespace World

/-- A sale without parameters at a time, with the given sinks. -/
def start (now : Instant) (sinks : List Sink) : World :=
  ⟨.blank, now, .empty, .empty, .none, .empty, .empty, sinks⟩

/-- The same with its clock at a time. -/
def setTime (w : World) (now : Instant) : World := { w with now }

/-- Files quotes as the rates of this moment. -/
def stampQuotes (quotes : Directory Currency Quote) (w : World) : World :=
  { w with rates := quotes.entries.foldl (fun t p => t.insert p.1 (p.2.at w.now)) w.rates }

/-- Answers an effect. -/
def perform (w : World) : Effect → Except CollaboratorError Unit × World
  | .issue id recipient amount =>
    let (a, issuance) := w.issuance.issue id recipient amount
    (a, { w with issuance })
  | .forward purchaseId currency amount destination =>
    let (a, transfers) := w.transfers.forward ⟨purchaseId, currency, amount, destination⟩
    (a, { w with transfers })
  | .refund purchaseId currency amount investor =>
    let (a, transfers) := w.transfers.refund ⟨purchaseId, currency, amount, investor.name⟩
    (a, { w with transfers })
  | .emit event =>
    let (a, sinks) := Sink.emitAll event w.now w.sinks
    (a, { w with sinks })

/-- Answers a call. -/
def serve (w : World) : (c : Call) → c.Answer × World
  | .compliance investor =>
    let (a, allowList) := w.allowList.check investor
    (a, { w with allowList })
  | .rate currency =>
    match w.rateFailures.take with
    | (true, rateFailures) => (.error (.transport "injected failure"), { w with rateFailures })
    | (false, _) => (w.rates.rate currency, w)
  | .effect e => w.perform e

/-- Replaces the book; what was there before, and the time. -/
def replace (w : World) (f : Book → Instant → Book) : (Book × Instant) × World :=
  ((w.book, w.now), { w with book := f w.book w.now })

/-- Runs an operation. -/
def run {α : Type} (p : Program α) : StateM World α :=
  p.interpret (fun c w => w.serve c) fun f w => w.replace f

/-! ## what callers look at -/

/-- The sums of the sale. -/
def stats (w : World) : SaleStats := w.book.stats w.now

/-- The events of the first sink. -/
def events (w : World) : List SaleEvent := (w.sinks.head?.map Sink.events).getD []

/-- The text of the journal, if one is kept. -/
def journalText? (w : World) : Option String := w.sinks.findSome? Sink.journalText?

/-- How many entries the journal holds, if one is kept. -/
def journalEntries? (w : World) : Option Nat := w.sinks.findSome? Sink.journalEntries?

end World

end TokenSale
