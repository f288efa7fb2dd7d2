import TokenSale.Proofs.JournalChain

/-!
# TokenSale.Proofs.JournalAppend

Appending to a journal.  The file is read line by line, with blanks around a
line passed over, while an entry is written behind the last character: the two
agree as long as nothing but blanks stands behind the last line break.

* `filledLines_append` — a line that is written there becomes a line of
  its own;
* `JournalFile` — a file that can be continued, and the writer behind it;
* `JournalFile.append`, `JournalFile.appendAll` — it stays one;
* `resume_ok_iff` — a writer resumes the files that are, and some more.
-/

namespace TokenSale

open JournalEntry

namespace JournalText

/-! ## lines -/

/-- Nothing but blanks stands behind the last line break. -/
def EndsBlank (cs : List Char) : Prop :=
  ∀ last, (lines cs).getLast? = some last → ∀ c ∈ last, Text.isBlank c = true

theorem lines_ne_nil (cs : List Char) : lines cs ≠ [] := by
  cases cs with
  | nil => simp [lines]
  | cons c cs =>
      rw [lines]
      split
      · simp
      · split <;> simp

theorem lines_of_notMem {cs : List Char} (h : '\n' ∉ cs) : lines cs = [cs] := by
  induction cs with
  | nil => rfl
  | cons c cs ih =>
      have hc : c ≠ '\n' := fun e => h (e ▸ List.mem_cons_self ..)
      rw [lines, if_neg hc, ih fun hmem => h (List.mem_cons_of_mem _ hmem)]

/-- What is written without a line break goes on the last line. -/
theorem lines_append {cs ds : List Char} (h : '\n' ∉ ds) : ∃ front last,
    lines cs = front ++ [last] ∧ lines (cs ++ ds) = front ++ [last ++ ds] := by
  induction cs with
  | nil => exact ⟨[], [], rfl, lines_of_notMem h⟩
  | cons c cs ih =>
      obtain ⟨front, last, hcs, happend⟩ := ih
      by_cases hc : c = '\n'
      · exact ⟨[] :: front, last, by simp [lines, hc, hcs], by simp [lines, hc, happend]⟩
      · cases front with
        | nil => exact ⟨[], c :: last, by simp [lines, hc, hcs], by simp [lines, hc, happend]⟩
        | cons first front =>
            exact ⟨(c :: first) :: front, last, by simp [lines, hc, hcs],
              by simp [lines, hc, happend]⟩

/-- A line break begins a line. -/
theorem lines_append_newline (cs : List Char) : lines (cs ++ ['\n']) = lines cs ++ [[]] := by
  induction cs with
  | nil => rfl
  | cons c cs ih =>
      by_cases hc : c = '\n'
      · simp [lines, hc, ih]
      · cases hl : lines cs with
        | nil => exact absurd hl (lines_ne_nil cs)
        | cons first front => simp [lines, hc, ih, hl]

theorem endsBlank_nil : EndsBlank [] := by
  intro last hlast
  cases hlast
  simp

theorem endsBlank_append_newline (cs : List Char) : EndsBlank (cs ++ ['\n']) := by
  intro last hlast
  rw [lines_append_newline, List.getLast?_append_of_ne_nil _ (by simp)] at hlast
  cases hlast
  simp

/-! ## lines that count -/

/-- A line break at the end adds no line that is filled. -/
theorem filledLines_append_newline (cs : List Char) :
    filledLines (cs ++ ['\n']) = filledLines cs := by
  simp [filledLines, lines_append_newline, Text.trim, Text.trimStart, Text.trimEnd]

/-- **A line that is written where only blanks stand becomes a line of its own.** -/
theorem filledLines_append {cs line : List Char} (hcs : EndsBlank cs) (hnewline : '\n' ∉ line)
    (htrim : Text.trim line = line) (hne : line ≠ []) :
    filledLines (cs ++ line) = filledLines cs ++ [line] := by
  obtain ⟨front, last, hlines, happend⟩ := lines_append hnewline
  have hblank : ∀ c ∈ last, Text.isBlank c = true := hcs last (by rw [hlines]; simp)
  have hlast : Text.trim last = [] := by
    rw [Text.trim, Text.trimStart, List.dropWhile_eq_nil_iff.2 hblank]
    rfl
  have hline : Text.trim (last ++ line) = line := by
    rw [Text.trim, Text.trimStart, List.dropWhile_append_of_pos hblank]
    exact htrim
  simp [filledLines, hlines, happend, hlast, hline, hne]

theorem readLines_append {n : Nat} {ls : List (List Char)} {es : List JournalEntry} {l : List Char}
    {e : JournalEntry} (hls : readLines n ls = .ok es) (hl : JournalEntry.ofChars? l = some e) :
    readLines n (ls ++ [l]) = .ok (es ++ [e]) := by
  induction ls generalizing n es with
  | nil =>
      cases hls
      simp [readLines, hl, Except.map]
  | cons l' ls ih =>
      rw [readLines] at hls
      cases he : JournalEntry.ofChars? l' with
      | none => rw [he] at hls; contradiction
      | some e' =>
          rw [he] at hls
          cases hrest : readLines (n + 1) ls with
          | error bad => rw [hrest] at hls; contradiction
          | ok es' =>
              rw [hrest] at hls
              cases hls
              rw [List.cons_append, readLines, he]
              simp only [ih hrest]
              rfl

theorem toList_appended (text : String) (e : JournalEntry) :
    (appended text e).toList = text.toList ++ e.line.toList ++ ['\n'] := by
  simp [appended]

/-- A text in which an entry was appended where only blanks stood has the
entry as its last. -/
theorem entriesOf_appended {text : String} {es : List JournalEntry} {e : JournalEntry}
    (hes : entriesOf text = .ok es) (hblank : EndsBlank text.toList)
    (he : JournalEntry.ofChars? e.line.toList = some e) :
    entriesOf (appended text e) = .ok (es ++ [e]) := by
  obtain ⟨cs, hcs⟩ := e.exists_toList_line
  have hfilled : filledLines (appended text e).toList =
      filledLines text.toList ++ [e.line.toList] := by
    rw [toList_appended, filledLines_append_newline]
    refine filledLines_append hblank e.newline_notMem_line ?_ (by simp [hcs])
    rw [hcs, trim_of_braces]
  rw [entriesOf, hfilled]
  exact readLines_append hes he

/-- A line without a break behind it is read as well. -/
theorem entriesOf_line {e : JournalEntry} (he : e.IsRecord Binary64.ReadsBack)
    (hdepth : e.payload.depth < Json.maxDepth) : entriesOf e.line = .ok [e] := by
  obtain ⟨cs, hcs⟩ := e.exists_toList_line
  have hfilled : filledLines e.line.toList = [e.line.toList] := by
    have hempty : filledLines [] = [] := rfl
    have happend := filledLines_append endsBlank_nil e.newline_notMem_line
      (by rw [hcs, trim_of_braces]) (by simp [hcs])
    rw [List.nil_append, hempty, List.nil_append] at happend
    exact happend
  rw [entriesOf, hfilled, readLines, he.ofChars?_line hdepth]
  rfl

/-- An entry behind another one on its line cannot be read. -/
theorem entriesOf_appended_line {e : JournalEntry} (he : e.IsRecord Binary64.ReadsBack)
    (hdepth : e.payload.depth < Json.maxDepth) (f : JournalEntry) :
    entriesOf (appended e.line f) = .error ⟨1⟩ := by
  obtain ⟨cs, hcs⟩ := e.exists_toList_line
  obtain ⟨ds, hds⟩ := f.exists_toList_line
  have hnewline : '\n' ∉ e.line.toList ++ f.line.toList := by
    simp [e.newline_notMem_line, f.newline_notMem_line]
  have hfilled : filledLines (appended e.line f).toList = [e.line.toList ++ f.line.toList] := by
    rw [toList_appended, filledLines_append_newline, filledLines, lines_of_notMem hnewline]
    have htrim := trim_of_braces (cs ++ '\x7d' :: '\x7b' :: ds)
    have happend : e.line.toList ++ f.line.toList =
        '\x7b' :: (cs ++ '\x7d' :: '\x7b' :: ds ++ ['\x7d']) := by simp [hcs, hds]
    rw [happend, List.map_singleton, htrim]
    rfl
  have hread : Json.ofChars? (e.line.toList ++ f.line.toList) = none := by
    have hends : Json.EndsNumber f.line.toList := by
      rw [hds]
      exact Json.endsNumber_cons (by decide)
    rw [toList_line, ← Json.write_append, Json.ofChars?, Json.readPrefix?_write
      he.isValue_settled.isDocument (Nat.le_trans he.depth_settled_le hdepth) hends]
    simp [hds, Json.skipGap, Json.isGap]
  rw [entriesOf, hfilled, readLines, JournalEntry.ofChars?, hread]
  rfl

end JournalText

/-! ## files -/

open JournalText

/-- A file that a writer can continue: its entries are the chain that the
writer stands behind, and nothing but blanks stands behind its last line break. -/
structure JournalFile (text : String) (w : JournalWriter) (es : List JournalEntry) : Prop where
  entries : entriesOf text = .ok es
  behind : w.Behind es
  endsBlank : EndsBlank text.toList

/-- What is appended: the kind and the payload of an entry, and its time. -/
structure Addition where
  kind : String
  payload : Json
  recordedAt : Instant

/-- The addition can be read back: its payload is not nested too deep, and its
floating-point numbers come back from their written forms. -/
structure Addition.IsReadable (a : Addition) : Prop where
  payload : a.payload.IsValue Binary64.ReadsBack
  depth : a.payload.depth < Json.maxDepth
  recordedAt : a.recordedAt.IsReading

/-- Appends one entry after the other: the entries, and the writer and the text
behind them. -/
def JournalWriter.appendAll (w : JournalWriter) (text : String) :
    List Addition → List JournalEntry × JournalWriter × String
  | [] => ([], w, text)
  | a :: rest =>
    let (e, w) := w.next a.kind a.payload a.recordedAt
    let (es, w, text) := appendAll w (appended text e) rest
    (e :: es, w, text)

namespace JournalFile

variable {text : String} {w : JournalWriter} {es : List JournalEntry}

/-- A kept file is found intact, with its number of entries. -/
theorem check_eq (h : JournalFile text w es) : check text = .ok (.intact es.length) := by
  rw [check, h.entries, ← h.behind.checkChain_eq]
  rfl

/-- **One entry more keeps a file that can be continued.** -/
theorem append (h : JournalFile text w es) {a : Addition} (ha : a.IsReadable)
    (hfits : es.length < Nat.pow 2 64) :
    JournalFile (appended text (w.next a.kind a.payload a.recordedAt).1)
      (w.next a.kind a.payload a.recordedAt).2
      (es ++ [(w.next a.kind a.payload a.recordedAt).1]) where
  entries := by
    have hseq : w.nextSeq < Nat.pow 2 64 := by rwa [h.behind.nextSeq_eq]
    have hrecord : (w.next a.kind a.payload a.recordedAt).1.IsRecord Binary64.ReadsBack :=
      ⟨hseq, ha.recordedAt, ha.payload⟩
    exact entriesOf_appended h.entries h.endsBlank (hrecord.ofChars?_line ha.depth)
  behind := h.behind.next ..
  endsBlank := by
    rw [toList_appended]
    exact endsBlank_append_newline _

/-- Any number of entries do. -/
theorem appendAll (h : JournalFile text w es) {additions : List Addition}
    (ha : ∀ a ∈ additions, a.IsReadable) (hfits : es.length + additions.length ≤ Nat.pow 2 64) :
    JournalFile (w.appendAll text additions).2.2 (w.appendAll text additions).2.1
      (es ++ (w.appendAll text additions).1) := by
  induction additions generalizing text w es with
  | nil => simpa [JournalWriter.appendAll] using h
  | cons a rest ih =>
      obtain ⟨ha, hrest⟩ := List.forall_mem_cons.1 ha
      rw [List.length_cons] at hfits
      have hstep := ih (h.append ha (by omega)) hrest
        (by rw [List.length_append, List.length_singleton]; omega)
      simpa [JournalWriter.appendAll] using hstep

end JournalFile

/-- As many entries are written as were asked for. -/
theorem JournalWriter.length_appendAll (w : JournalWriter) (text : String)
    (additions : List Addition) : (w.appendAll text additions).1.length = additions.length := by
  induction additions generalizing w text with
  | nil => rfl
  | cons a rest ih => simp [appendAll, ih]

/-! ## opening -/

namespace JournalWriter

variable {path : String} {saleId : Uuid} {text : String} {w : JournalWriter}

/-- **A writer resumes the chain that a text holds**, behind its last entry. -/
theorem resume_ok_iff : resume path saleId (some text) = .ok w ↔
    w.saleId = saleId ∧ ∃ es, entriesOf text = .ok es ∧ w.Behind es := by
  simp only [resume]
  constructor
  · intro h
    split at h
    · contradiction
    next es hes =>
    split at h
    · contradiction
    next n hintact =>
    split at h
    · contradiction
    next hsale =>
    cases h
    -- the last entry decides the sale, the next number and the hash to go on from
    rcases List.eq_nil_or_concat es with rfl | ⟨es, e, rfl⟩
    · exact ⟨rfl, [], hes, behind_fresh saleId⟩
    · rw [List.concat_eq_append] at *
      obtain ⟨saleId', hcheck⟩ := exists_saleId (es ++ [e])
      rw [hcheck] at hintact
      obtain ⟨m, hes', hstands, rfl⟩ := checkChainFrom_append_singleton.1 hintact
      have hsame : e.saleId = saleId := by simpa using hsale
      have hbehind : behind saleId (es ++ [e]) = ⟨saleId, m + 1, some e.hash⟩ := by
        simp [behind, hstands.seq_eq]
      rw [hbehind]
      refine ⟨rfl, _, hes, ?_, (lastHash_append_singleton ..).symm⟩
      rwa [← hsame, hstands.saleId_eq]
  · rintro ⟨rfl, es, hes, hbehind⟩
    have hlast : (es.getLast?.filter fun last => decide (last.saleId ≠ w.saleId)) = none := by
      rcases List.eq_nil_or_concat es with rfl | ⟨es, e, rfl⟩
      · rfl
      · rw [List.concat_eq_append] at *
        obtain ⟨m, -, hstands, -⟩ := checkChainFrom_append_singleton.1 hbehind.intact
        simp [hstands.saleId_eq]
    simp only [hes, hbehind.checkChain_eq, hlast, hbehind.eq_behind]

/-- **A resumed journal keeps its entries and takes in what is appended**, as
long as nothing but blanks stands behind its last line break: the file holds
the old entries and then the new ones, as they were returned, and verifies. -/
theorem appendAll_of_resume {additions : List Addition}
    (hopen : resume path saleId (some text) = .ok w) (hblank : EndsBlank text.toList)
    (hreadable : ∀ a ∈ additions, a.IsReadable)
    (hfits : w.nextSeq + additions.length ≤ Nat.pow 2 64) :
    ∃ old, entriesOf text = .ok old ∧ check text = .ok (.intact old.length) ∧
      entriesOf (w.appendAll text additions).2.2 = .ok (old ++ (w.appendAll text additions).1) ∧
      (w.appendAll text additions).1.length = additions.length ∧
      check (w.appendAll text additions).2.2 = .ok (.intact (old.length + additions.length)) := by
  obtain ⟨-, old, hold, hbehind⟩ := resume_ok_iff.1 hopen
  have hfile : JournalFile text w old := ⟨hold, hbehind, hblank⟩
  rw [hbehind.nextSeq_eq] at hfits
  have hfile' := hfile.appendAll hreadable hfits
  have hlength := w.length_appendAll text additions
  refine ⟨old, hold, hfile.check_eq, hfile'.entries, hlength, ?_⟩
  rw [hfile'.check_eq, List.length_append, hlength]

end JournalWriter

/-- An addition to a journal. -/
def Sample.addition : Addition := ⟨"NOTE", .null, noon⟩

theorem Sample.isReadable_addition : Sample.addition.IsReadable :=
  ⟨.null, by decide, ⟨by decide, by decide, by decide⟩⟩

/-- The place behind the note of the samples. -/
def Sample.behindNote : JournalWriter := ⟨noteSale, 1, some note.hash⟩

theorem Sample.behind_note : Sample.behindNote.Behind [Sample.note] :=
  ⟨Sample.checkChain_note, rfl⟩

/-- A journal of one note takes in another entry. -/
theorem appendAll_of_resume_note : ∃ text, EndsBlank text.toList ∧
    JournalWriter.resume "journal" Sample.noteSale (some text) = .ok Sample.behindNote ∧
    ∃ new, entriesOf (Sample.behindNote.appendAll text [Sample.addition]).2.2 =
      .ok (Sample.note :: new) ∧ new.length = 1 := by
  have hnote : ofChars? Sample.note.line.toList = some Sample.note :=
    Sample.isRecord_note.ofChars?_line (by decide)
  have hempty : EndsBlank "".toList := endsBlank_nil
  have hentries : entriesOf (appended "" Sample.note) = .ok [Sample.note] :=
    entriesOf_appended rfl hempty hnote
  have hblank : EndsBlank (appended "" Sample.note).toList := by
    rw [toList_appended]
    exact endsBlank_append_newline _
  have hopen : JournalWriter.resume "journal" Sample.noteSale (some (appended "" Sample.note)) =
      .ok Sample.behindNote :=
    JournalWriter.resume_ok_iff.2 ⟨rfl, _, hentries, Sample.behind_note⟩
  have hreadable : ∀ a ∈ [Sample.addition], a.IsReadable := by
    simpa using Sample.isReadable_addition
  obtain ⟨old, hold, -, hnew, hlength, -⟩ :=
    JournalWriter.appendAll_of_resume hopen hblank hreadable (by decide)
  rw [hentries] at hold
  cases hold
  exact ⟨_, hblank, hopen, _, hnew, hlength⟩

/-- **A journal without a break behind its last line is resumed and then broken**
by the next entry, which goes on that line. -/
theorem unreadable_after_append :
    JournalWriter.resume "journal" Sample.noteSale (some Sample.note.line) = .ok Sample.behindNote ∧
      check Sample.note.line = .ok (.intact 1) ∧
      check (Sample.behindNote.appendAll Sample.note.line [Sample.addition]).2.2 = .error ⟨1⟩ := by
  have hentries : entriesOf Sample.note.line = .ok [Sample.note] :=
    entriesOf_line Sample.isRecord_note (by decide)
  refine ⟨JournalWriter.resume_ok_iff.2 ⟨rfl, _, hentries, Sample.behind_note⟩, ?_, ?_⟩
  · rw [check, hentries]
    exact congrArg Except.ok Sample.checkChain_note
  · rw [check, JournalWriter.appendAll]
    exact congrArg (Except.map checkChain)
      (entriesOf_appended_line Sample.isRecord_note (by decide) _)

end TokenSale
