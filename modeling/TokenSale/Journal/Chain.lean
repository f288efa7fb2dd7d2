import TokenSale.Journal.Entry
import TokenSale.Text.Quoted

/-!
# TokenSale.Journal.Chain

Walking the chain of a journal.  Every entry must have the next number, the
sale of the first entry, the hash of the entry before it, the hash of its own
content and the identity of its place; the first entry that does not is
reported with its line.
-/

namespace TokenSale

/-- Why a chain is broken. -/
inductive ChainFault where
  | seqGap (expected found : Nat)
  | saleChanged (saleId : Uuid)
  | prevHashMismatch (expected found : Option String)
  | hashMismatch (stored recomputed : String)
  | foreignId (entryId : Uuid)
  deriving DecidableEq

/-- The reason in a message. -/
def ChainFault.message : ChainFault → String
  | seqGap expected found => s!"seq gap: expected {expected}, got {found}"
  | saleChanged saleId => s!"sale_id changed to {saleId}"
  | prevHashMismatch expected found =>
    s!"prev_hash mismatch: expected {Text.quotedOption expected}, " ++
      s!"got {Text.quotedOption found}"
  | hashMismatch stored recomputed =>
    s!"hash mismatch: stored {stored}, recomputed {recomputed}"
  | foreignId entryId => s!"entry_id {entryId} not derived from chain"

/-- The outcome of walking a chain. -/
inductive ChainCheck where
  | intact (entries : Nat)
  /-- Lines count from one and skip blank ones. -/
  | broken (line : Nat) (fault : ChainFault)
  deriving DecidableEq

namespace JournalEntry

/-- What is wrong with an entry at a place in the chain of a sale. -/
def fault? (seq : Nat) (saleId : Uuid) (prevHash : Option String) (e : JournalEntry) :
    Option ChainFault :=
  if e.seq ≠ seq then some (.seqGap seq e.seq)
  else if saleId ≠ e.saleId then some (.saleChanged e.saleId)
  else if e.prevHash ≠ prevHash then some (.prevHashMismatch prevHash e.prevHash)
  else
    let recomputed := e.expectedHash
    if recomputed ≠ e.hash then some (.hashMismatch e.hash recomputed)
    else if e.entryId ≠ idAt e.saleId e.seq prevHash then some (.foreignId e.entryId)
    else none

end JournalEntry

/-- Walks the entries from a place on. -/
def checkChainFrom (seq : Nat) (saleId : Uuid) (prevHash : Option String) :
    List JournalEntry → ChainCheck
  | [] => .intact seq
  | e :: rest =>
    match e.fault? seq saleId prevHash with
    | some fault => .broken (seq + 1) fault
    | none => checkChainFrom (seq + 1) saleId (some e.hash) rest

/-- Walks all entries; the first one says which sale it is. -/
def checkChain : List JournalEntry → ChainCheck
  | [] => .intact 0
  | e :: rest => checkChainFrom 0 e.saleId none (e :: rest)

end TokenSale
