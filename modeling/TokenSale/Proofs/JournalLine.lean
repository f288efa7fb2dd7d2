import TokenSale.Journal.Text
import TokenSale.Proofs.WrittenForms

/-!
# TokenSale.Proofs.JournalLine

An entry comes back from its line.  The line is the settled document of the
entry, so it does not matter in which order the members of the payload stood.

* `JournalEntry.IsRecord` — entries as programs hold them;
* `IsRecord.readAs`, `IsRecord.decode_settled` — an entry comes back from its
  document;
* `IsRecord.ofChars?_line` — and from its line, unless it is nested too deep;
* `eq_of_line_eq` — two entries with one line are the same, however deep.
-/

namespace TokenSale

open Json Directory

namespace JournalEntry

variable {ok : Binary64 → Prop} {e f : JournalEntry}

/-- An entry as programs hold it, with floating-point numbers of some kind in
its payload. -/
structure IsRecord (ok : Binary64 → Prop) (e : JournalEntry) : Prop where
  seq_lt : e.seq < Nat.pow 2 64
  recordedAt : e.recordedAt.IsReading
  payload : e.payload.IsValue ok

theorem IsRecord.mono {ok' : Binary64 → Prop} (hok : ∀ x, ok x → ok' x) (h : e.IsRecord ok) :
    e.IsRecord ok' := ⟨h.seq_lt, h.recordedAt, h.payload.mono hok⟩

/-- The members of the document of an entry. -/
def members (e : JournalEntry) : List (String × Json) :=
  [("seq", .nat e.seq), ("entry_id", e.entryId.encode), ("sale_id", e.saleId.encode),
    ("recorded_at", e.recordedAt.encode), ("kind", .str e.kind), ("payload", e.payload),
    ("prev_hash", .ofOption .str e.prevHash), ("hash", .str e.hash)]

theorem encode_eq (e : JournalEntry) : e.encode = .obj e.members := rfl

theorem nodup_members (e : JournalEntry) : (e.members.map Prod.fst).Nodup := by
  simp [members]

/-- An entry is read from its document, with the members in any order. -/
theorem IsRecord.readAs (h : e.IsRecord ok) : ReadAs e.encode decode e := by
  have hprevHash : ReadAs (.ofOption .str e.prevHash) (decodeOption decodeString) e.prevHash :=
    readAs_option (fun s _ => readAs_str s) fun _ _ => Json.noConfusion
  refine .of_fields [.required "seq" (readAs_nat64 h.seq_lt), .required "entry_id" e.entryId.readAs,
    .required "sale_id" e.saleId.readAs,
    .required "recorded_at" (Instant.readAs h.recordedAt.ofText?_text),
    .required "kind" (readAs_str e.kind), .required "payload" h.payload.readAs,
    .optional "prev_hash" hprevHash, .required "hash" (readAs_str e.hash)] (by simp)
    fun ns hread => ?_
  simp only [List.forall_mem_cons, Field.required, Field.optional] at hread
  simp only [ok_bind, hread]
  rfl

/-- An entry that reads back is a document. -/
theorem IsRecord.isDocument (h : e.IsRecord ok) : e.encode.IsDocument ok := by
  refine .obj ?_ e.nodup_members
  simp only [List.forall_mem_cons]
  refine ⟨isDocument_nat h.seq_lt, .str _, .str _, .str _, .str _, h.payload.isDocument, ?_, .str _,
    List.forall_mem_nil _⟩
  cases e.prevHash
  · exact .null
  · exact .str _

/-- **An entry comes back from its document.** -/
theorem IsRecord.decode_settled (h : e.IsRecord ok) : decode e.encode.settled = .ok e :=
  h.readAs _ h.isDocument.alike_settled

/-! ## lines -/

theorem depth_encode_le (e : JournalEntry) : e.encode.depth ≤ e.payload.depth + 1 := by
  refine depth_obj_le ?_
  simp only [List.forall_mem_cons]
  refine ⟨Nat.zero_le _, Nat.zero_le _, Nat.zero_le _, Nat.zero_le _, Nat.zero_le _, Nat.le_refl _,
    ?_, Nat.zero_le _, List.forall_mem_nil _⟩
  cases e.prevHash <;> exact Nat.zero_le _

/-- The document that a line spells. -/
theorem IsRecord.isValue_settled (h : e.IsRecord ok) : e.encode.settled.IsValue ok :=
  h.isDocument.isValue_settled

theorem IsRecord.depth_settled_le (h : e.IsRecord ok) :
    e.encode.settled.depth ≤ e.payload.depth + 1 :=
  Nat.le_trans (Nat.le_of_eq h.isDocument.depth_settled) e.depth_encode_le

/-- The line of an entry is its settled object, written without gaps. -/
theorem toList_line (e : JournalEntry) : e.line.toList = write e.encode.settled [] := by
  rw [line, canonical, compact, String.toList_ofList]

/-- A line is one object. -/
theorem exists_toList_line (e : JournalEntry) :
    ∃ cs, e.line.toList = '\x7b' :: (cs ++ ['\x7d']) := by
  rw [toList_line, encode_eq, Json.settled, write, writeMembers_append]
  exact ⟨_, rfl⟩

/-- **An entry takes one line.** -/
theorem newline_notMem_line (e : JournalEntry) : '\n' ∉ e.line.toList := by
  rw [toList_line]
  exact newline_notMem_write _

/-- A text in braces has no blanks around it. -/
theorem trim_of_braces (cs : List Char) :
    Text.trim ('\x7b' :: (cs ++ ['\x7d'])) = '\x7b' :: (cs ++ ['\x7d']) := by
  refine Text.trim_eq_self_iff.2 ⟨fun c hc => ?_, fun c hc => ?_⟩
  · cases hc
    decide
  · rw [← List.cons_append, List.getLast?_append_of_ne_nil _ (by simp)] at hc
    cases hc
    decide

/-- **An entry comes back from its line**, unless its payload is nested too deep. -/
theorem IsRecord.ofChars?_line (h : e.IsRecord Binary64.ReadsBack)
    (hdepth : e.payload.depth < maxDepth) : ofChars? e.line.toList = some e := by
  rw [ofChars?, toList_line, ofChars?_write h.isValue_settled.isDocument
    (Nat.le_trans h.depth_settled_le hdepth), Option.bind_some, h.decode_settled]
  rfl

/-- **Two entries with one line are the same.** -/
theorem eq_of_line_eq (he : e.IsRecord Binary64.ReadsBack) (hf : f.IsRecord Binary64.ReadsBack)
    (h : e.line = f.line) : e = f := by
  have hwrite : write e.encode.settled [] = write f.encode.settled [] := by
    rw [← toList_line, ← toList_line, h]
  have hdecode := congrArg decode (eq_of_write_eq he.isValue_settled.isDocument
    hf.isValue_settled.isDocument hwrite)
  rw [he.decode_settled, hf.decode_settled] at hdecode
  cases hdecode
  rfl

end JournalEntry

end TokenSale
