import TokenSale.Journal.Chain
import TokenSale.Json.Decode
import TokenSale.Json.Reader
import TokenSale.Text.Blank
import TokenSale.Wire.Values

/-!
# TokenSale.Journal.Text

The text of a journal: one entry a line.  Blank lines and blanks around a
line do not count.

* `entriesOf` — the entries of a text, or the first line that is none;
* `appended` — a text with one more entry at its end;
* `check` — the walk along the chain of a text.
-/

namespace TokenSale

namespace JournalEntry

open Json

/-- The document of an entry. -/
def decode : Decoder JournalEntry := fun v => do
  let r ← record [known "seq" decodeNat64, known "entry_id" Uuid.decode,
    known "sale_id" Uuid.decode, known "recorded_at" Instant.decode, known "kind" decodeString,
    known "payload" decodeJson, known "prev_hash" (decodeOption decodeString),
    known "hash" decodeString] v
  pure {
    seq := ← required r "seq" decodeNat64
    entryId := ← required r "entry_id" Uuid.decode
    saleId := ← required r "sale_id" Uuid.decode
    recordedAt := ← required r "recorded_at" Instant.decode
    kind := ← required r "kind" decodeString
    payload := ← required r "payload" decodeJson
    prevHash := ← optional r "prev_hash" decodeString
    hash := ← required r "hash" decodeString }

/-- The entry that a line spells. -/
def ofChars? (cs : List Char) : Option JournalEntry :=
  (Json.ofChars? cs).bind fun v => (decode v).toOption

end JournalEntry

/-- A line that is no entry; lines count from one and skip blank ones. -/
structure BadLine where
  line : Nat
  deriving DecidableEq

/-- The message about a line that is no entry. -/
def BadLine.message (e : BadLine) : String := s!"parse journal entry at line {e.line}"

namespace JournalText

/-- The lines of a text, apart from their line breaks. -/
def lines : List Char → List (List Char)
  | [] => [[]]
  | c :: rest =>
    if c = '\n' then [] :: lines rest
    else
      match lines rest with
      | [] => [[c]]
      | first :: more => (c :: first) :: more

/-- The lines that are not blank, without the blanks around them. -/
def filledLines (cs : List Char) : List (List Char) :=
  ((lines cs).map Text.trim).filter fun l => !l.isEmpty

/-- The entries of lines, the first of which has the number `n`. -/
def readLines (n : Nat) : List (List Char) → Except BadLine (List JournalEntry)
  | [] => .ok []
  | l :: rest =>
    match JournalEntry.ofChars? l with
    | none => .error ⟨n⟩
    | some e => (readLines (n + 1) rest).map (e :: ·)

/-- The entries of a text. -/
def entriesOf (text : String) : Except BadLine (List JournalEntry) :=
  readLines 1 (filledLines text.toList)

/-- The text with an entry at its end. -/
def appended (text : String) (e : JournalEntry) : String := text ++ e.line ++ "\n"

/-- The text with the first characters of an entry's line at its end, and no
line break behind them. -/
def cutShort (text : String) (e : JournalEntry) (taken : Nat) : String :=
  text ++ String.ofList (e.line.toList.take taken)

/-- Walks the chain of a text. -/
def check (text : String) : Except BadLine ChainCheck := (entriesOf text).map checkChain

end JournalText

end TokenSale
