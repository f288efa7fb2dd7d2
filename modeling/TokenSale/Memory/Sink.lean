import TokenSale.Journal.Writer
import TokenSale.Memory.Collaborators
import TokenSale.Wire.Sale

/-!
# TokenSale.Memory.Sink

Where events go: to a log in memory, or to a journal, as the kind of the event
and its wire form.  Events can be sent to several sinks at once.

* `Sink.emit` — one event to one sink;
* `Sink.emitAll` — one event to all sinks: each of them is told, also behind
  one that fails, and the first failure is reported.
-/

namespace TokenSale

/-- One sink. -/
inductive Sink where
  | log (log : EventLog)
  /-- The text of a journal, the writer behind it, and the file it is kept in. -/
  | journal (writer : JournalWriter) (text : String) (medium : Medium := .sound)

namespace Sink

/-- A log without events. -/
def emptyLog : Sink := log .empty

/-- The events of a log; a journal keeps them as entries. -/
def events : Sink → List SaleEvent
  | log l => l.events
  | journal .. => []

/-- The text of a journal. -/
def journalText? : Sink → Option String
  | log _ => none
  | journal _ text _ => some text

/-- How many entries a journal holds. -/
def journalEntries? : Sink → Option Nat
  | log _ => none
  | journal writer .. => some writer.nextSeq

/-- The journal in the file at a path, which may not be there yet.  Nothing is
written by opening it, so a file that will refuse every append is not noticed. -/
def openJournal (path : String) (saleId : Uuid) (content : Option String)
    (medium : Medium := .sound) : Except JournalError Sink :=
  (JournalWriter.resume path saleId content).map fun writer =>
    journal writer (content.getD "") medium

/-- Makes the next calls of a log fail. -/
def failNext (n : Nat) : Sink → Sink
  | log l => log { l with failures := ⟨n⟩ }
  | s => s

/-- Sends an event to a sink. -/
def emit (e : SaleEvent) (now : Instant) : Sink → Except CollaboratorError Unit × Sink
  | log l => let (a, l) := l.emit e; (a, log l)
  | journal writer text medium =>
    let (refusal, medium) := medium.take
    let (a, writer, text) := writer.append text refusal e.kind e.encode now
    (a.mapError fun cause => ⟨.journal, cause⟩, journal writer text medium)

/-- Sends an event to all sinks. -/
def emitAll (e : SaleEvent) (now : Instant) :
    List Sink → Except CollaboratorError Unit × List Sink
  | [] => (.ok (), [])
  | s :: rest =>
    let (a, s) := s.emit e now
    let (b, rest) := emitAll e now rest
    (match a with
      | .ok () => b
      | .error _ => a, s :: rest)

end Sink

end TokenSale
