import TokenSale.Digest.Hex
import TokenSale.Instant.Text
import TokenSale.Json.Printer
import TokenSale.Uuid

/-!
# TokenSale.Journal.Entry

The entries of a journal.  Each carries the hash of the one before it and its
own hash over all its other fields, and its identity follows from its place
in the chain; replaying the same events gives the same identities.
-/

namespace TokenSale

/-- One entry of a journal. -/
structure JournalEntry where
  seq : Nat
  entryId : Uuid
  saleId : Uuid
  recordedAt : Instant
  /-- The kind of event. -/
  kind : String
  payload : Json
  prevHash : Option String
  hash : String

namespace JournalEntry

/-- The entry as a document. -/
def encode (e : JournalEntry) : Json :=
  .obj [("seq", .nat e.seq), ("entry_id", .str e.entryId.text), ("sale_id", .str e.saleId.text),
    ("recorded_at", .str e.recordedAt.text), ("kind", .str e.kind), ("payload", e.payload),
    ("prev_hash", .ofOption .str e.prevHash), ("hash", .str e.hash)]

/-- The line of the entry in the journal, without its line break. -/
def line (e : JournalEntry) : String := e.encode.canonical

/-- The hash that belongs to the entry: of its line with the hash left blank. -/
def expectedHash (e : JournalEntry) : String := Digest.sha256Hex { e with hash := "" }.line

/-- The identity of the entry at a place in the chain. -/
def idAt (saleId : Uuid) (seq : Nat) (prevHash : Option String) : Uuid :=
  let previous := prevHash.getD "GENESIS"
  saleId.derive s!"{seq}:{previous}"

/-- The entry with its hash filled in. -/
def hashed (e : JournalEntry) : JournalEntry := { e with hash := e.expectedHash }

/-- The entry that follows in a chain. -/
def next (saleId : Uuid) (seq : Nat) (prevHash : Option String) (recordedAt : Instant)
    (kind : String) (payload : Json) : JournalEntry :=
  hashed {
    seq
    entryId := idAt saleId seq prevHash
    saleId
    recordedAt
    kind
    payload
    prevHash
    hash := "" }

end JournalEntry

end TokenSale
