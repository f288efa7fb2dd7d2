import TokenSale.Journal.Text

/-!
# TokenSale.Journal.Writer

Writing a journal.  A writer knows its place in the chain; it starts a new
chain, or resumes the chain of a text that is intact and belongs to the same
sale.  The file behind it may refuse what is appended.

* `resume` — the writer for what a file holds;
* `next` — the entry at its place, and the writer behind it;
* `append` — one entry more in a file, unless the file refuses it.
-/

namespace TokenSale

/-- A place in the chain of a sale. -/
structure JournalWriter where
  saleId : Uuid
  nextSeq : Nat
  lastHash : Option String
  deriving DecidableEq

/-- Why a journal cannot be read or resumed. -/
inductive JournalError where
  /-- There is no such file. -/
  | unreadable (path : String)
  | badLine (cause : BadLine)
  | broken (path : String) (line : Nat) (fault : ChainFault)
  | otherSale (path : String) (found expected : Uuid)
  deriving DecidableEq

/-- The message of an error. -/
def JournalError.message : JournalError → String
  | unreadable path => s!"read journal {Text.quoted path}"
  | badLine cause => cause.message
  | broken path line fault =>
    s!"refusing to resume broken journal {Text.quoted path} at line {line}: {fault.message}"
  | otherSale path found expected =>
    s!"journal {Text.quoted path} belongs to sale {found}, not {expected}"

/-- Why a file refuses an append, and how many characters of the line it has
taken before that. -/
structure Refusal where
  cause : String
  taken : Nat
  deriving DecidableEq

/-- What becomes of appends to a file: of the next ones, in order, and of all
those behind them. -/
structure Medium where
  next : List (Option Refusal)
  others : Option Refusal
  deriving DecidableEq

namespace Medium

/-- Every append is taken. -/
def sound : Medium := ⟨[], none⟩

/-- A file that cannot be opened: nothing is ever written to it. -/
def closed (cause : String) : Medium := ⟨[], some ⟨cause, 0⟩⟩

/-- What becomes of this append, and the medium for those behind it. -/
def take (m : Medium) : Option Refusal × Medium :=
  match m.next with
  | [] => (m.others, m)
  | a :: rest => (a, { m with next := rest })

end Medium

namespace JournalWriter

/-- The start of the chain of a sale. -/
def fresh (saleId : Uuid) : JournalWriter := ⟨saleId, 0, none⟩

/-- The place behind entries. -/
def behind (saleId : Uuid) (entries : List JournalEntry) : JournalWriter :=
  match entries.getLast? with
  | none => fresh saleId
  | some last => ⟨saleId, last.seq + 1, some last.hash⟩

/-- The writer for the file at a path, which may not be there yet. -/
def resume (path : String) (saleId : Uuid) (content : Option String) :
    Except JournalError JournalWriter :=
  match content with
  | none => .ok (fresh saleId)
  | some text =>
    match JournalText.entriesOf text with
    | .error e => .error (.badLine e)
    | .ok entries =>
      match checkChain entries with
      | .broken line fault => .error (.broken path line fault)
      | .intact _ =>
        match entries.getLast?.filter fun last => last.saleId ≠ saleId with
        | some last => .error (.otherSale path last.saleId saleId)
        | none => .ok (behind saleId entries)

/-- The entry at the writer's place, and the writer behind it. -/
def next (w : JournalWriter) (kind : String) (payload : Json) (recordedAt : Instant) :
    JournalEntry × JournalWriter :=
  let e := JournalEntry.next w.saleId w.nextSeq w.lastHash recordedAt kind payload
  (e, { w with nextSeq := w.nextSeq + 1, lastHash := some e.hash })

/-- Appends an entry to a file: the answer, and the writer and the text then.
The writer goes on only once the whole line is in the file. -/
def append (w : JournalWriter) (text : String) (refusal : Option Refusal) (kind : String)
    (payload : Json) (recordedAt : Instant) : Except String Unit × JournalWriter × String :=
  let (e, next) := w.next kind payload recordedAt
  match refusal with
  | none => (.ok (), next, JournalText.appended text e)
  | some r => (.error r.cause, w, JournalText.cutShort text e r.taken)

end JournalWriter

end TokenSale
