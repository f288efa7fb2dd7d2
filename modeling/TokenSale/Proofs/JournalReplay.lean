import TokenSale.Command.Execute
import TokenSale.Memory.Sink
import TokenSale.Proofs.EventRecord
import TokenSale.Proofs.JournalAppend
import TokenSale.Proofs.Readings

/-!
# TokenSale.Proofs.JournalReplay

A journal replays the events that were sent to it.  Its sink is opened for a
file that is not there yet, and may be closed and opened again at any time;
the file holds the events in the order in which they were sent, and verifies.

* `JournalUse`, `JournalUse.run` — what happens to a sink and its file;
* `verifyJournal` — the walk along the chain in a file, which may be missing;
* `KeptJournal` — a file that holds events, and the sink that is open for it;
* `replays_events` — the events that are read back are those that were sent.
-/

namespace TokenSale

open JournalText

/-! ## files that are verified -/

/-- The walk along the chain of the file at a path, if there is one. -/
def verifyJournal (path : String) : Option String → Except JournalError ChainCheck
  | none => .error (.unreadable path)
  | some text => (check text).mapError .badLine

/-- What the command says about a walk, and whether it fails. -/
def ChainCheck.report (path : String) : ChainCheck → List String × Option CommandError
  | intact entries => ([s!"journal_intact=true entries={entries}"], none)
  | broken line fault =>
    ([s!"journal_intact=false line={line} reason={fault.message}"],
      some (.brokenJournal path line fault))

/-- The command that verifies a journal reports the walk along its chain. -/
theorem Command.auditVerify_eq (f : Folder) (path : String) : auditVerify f path =
    ((verifyJournal path (f.read? path)).mapError .journal).map (ChainCheck.report path) := by
  rw [auditVerify]
  cases f.read? path with
  | none => rfl
  | some text =>
      simp only [verifyJournal]
      cases check text with
      | error bad => rfl
      | ok walk => cases walk <;> rfl

/-! ## uses -/

/-- What happens to the journal of a sale. -/
inductive JournalUse where
  /-- An event is sent to the sink. -/
  | emit (event : SaleEvent) (now : Instant)
  /-- The sink is closed, and opened again for the same sale. -/
  | reopen

namespace JournalUse

/-- The event and the time are ones that programs can hold. -/
def IsHeld : JournalUse → Prop
  | emit event now => event.Fits ∧ now.InRange
  | reopen => True

/-- The event that is sent. -/
def event? : JournalUse → Option SaleEvent
  | emit event _ => some event
  | reopen => none

/-- The file, which may not be there, and the open sink after a use. -/
def step (path : String) (saleId : Uuid) (state : Option String × Sink) :
    JournalUse → Except JournalError (Option String × Sink)
  | emit event now =>
    let sink := (state.2.emit event now).2
    .ok (sink.journalText?, sink)
  | reopen => (Sink.openJournal path saleId state.1).map fun sink => (state.1, sink)

/-- The same after uses of a sink that is opened for a file that is not there. -/
def run (path : String) (saleId : Uuid) (uses : List JournalUse) :
    Except JournalError (Option String × Sink) := do
  let sink ← Sink.openJournal path saleId none
  uses.foldlM (step path saleId) (none, sink)

end JournalUse

/-! ## entries of events -/

/-- The entry that is read back: its time as its wire form gives it, and its
payload settled. -/
def JournalEntry.asRead (e : JournalEntry) : JournalEntry :=
  { e with recordedAt := e.recordedAt.asRead, payload := e.payload.settled }

variable {ok : Binary64 → Prop}

/-- It has the same line. -/
theorem JournalEntry.line_asRead {e : JournalEntry} (h : e.payload.settled.IsValue ok) :
    e.asRead.line = e.line := by
  have hmembers : Json.settledMembers e.asRead.members = Json.settledMembers e.members :=
    Json.settledMembers_congr (by
      simp [members, asRead, Instant.encode, e.recordedAt.text_asRead, h.settled])
  simp only [line, Json.canonical, encode_eq, Json.settled, hmembers]

/-- A writer makes it from what is read back, and goes on from the same place. -/
theorem JournalWriter.next_asRead (w : JournalWriter) (kind : String) {payload : Json}
    (h : payload.settled.IsValue ok) (now : Instant) :
    (w.next kind payload.settled now.asRead).1 = (w.next kind payload now).1.asRead ∧
      (w.next kind payload.settled now.asRead).2 = (w.next kind payload now).2 := by
  let blank : JournalEntry := { (w.next kind payload now).1 with hash := "" }
  have hblank : blank.asRead.line = blank.line := JournalEntry.line_asRead h
  have hhash : (w.next kind payload.settled now.asRead).1.hash = (w.next kind payload now).1.hash :=
    congrArg Digest.sha256Hex hblank
  exact ⟨congrArg (fun hash => { (w.next kind payload now).1.asRead with hash }) hhash,
    congrArg (fun hash => { w with nextSeq := w.nextSeq + 1, lastHash := some hash }) hhash⟩

/-- An event that is sent becomes an entry with its settled document. -/
theorem Sink.emit_journal (w : JournalWriter) (text : String) {event : SaleEvent} (h : event.Fits)
    (now : Instant) : (Sink.journal w text).emit event now =
      (.ok (), .journal (w.next event.kind event.encode.settled now.asRead).2
        (appended text (w.next event.kind event.encode.settled now.asRead).1)) := by
  have hvalue : event.encode.settled.IsValue fun _ => False := SaleEvent.isValue_settled h
  obtain ⟨hentry, hplace⟩ := w.next_asRead event.kind hvalue now
  rw [hplace, hentry, appended, JournalEntry.line_asRead hvalue]
  rfl

/-! ## runs -/

/-- The entry records the event. -/
structure Records (e : JournalEntry) (event : SaleEvent) : Prop where
  kind_eq : e.kind = event.kind
  decode_payload : SaleEvent.decode e.payload = .ok event

theorem map_kind_of_records {es : List JournalEntry} {events : List SaleEvent}
    (h : List.Forall₂ Records es events) : es.map (·.kind) = events.map SaleEvent.kind := by
  induction h with
  | nil => rfl
  | cons hrecord _ ih => rw [List.map_cons, List.map_cons, hrecord.kind_eq, ih]

/-- The payloads of recorded entries decode to their events. -/
theorem mapM_decode_of_records {es : List JournalEntry} {events : List SaleEvent}
    (h : List.Forall₂ Records es events) :
    es.mapM (fun e => SaleEvent.decode e.payload) = .ok events :=
  mapM_eq_ok_iff.2 (h.imp fun _ _ hrecord => hrecord.decode_payload)

/-- The file holds entries that record the events, and the sink is open for it;
there is no file before the first event. -/
structure KeptJournal (events : List SaleEvent) (w : JournalWriter) (text : String)
    (es : List JournalEntry) (state : Option String × Sink) : Prop where
  file : JournalFile text w es
  sink_eq : state.2 = .journal w text
  content_eq : state.1 = if events = [] then none else some text
  text_eq : events = [] → text = ""
  records : List.Forall₂ Records es events

namespace KeptJournal

variable {events : List SaleEvent} {w : JournalWriter} {text : String} {es : List JournalEntry}
  {state : Option String × Sink}

theorem fresh (saleId : Uuid) :
    KeptJournal [] (.fresh saleId) "" [] (none, .journal (.fresh saleId) "") where
  file := ⟨rfl, JournalWriter.behind_fresh saleId, endsBlank_nil⟩
  sink_eq := rfl
  content_eq := rfl
  text_eq _ := rfl
  records := .nil

/-- An event that is sent is recorded behind the others. -/
theorem emit (path : String) (h : KeptJournal events w text es state) {event : SaleEvent}
    {now : Instant} (hevent : event.Fits) (hnow : now.InRange)
    (hfits : events.length < Nat.pow 2 64) :
    ∃ w' text' es' state', (JournalUse.emit event now).step path w.saleId state = .ok state' ∧
      w'.saleId = w.saleId ∧ KeptJournal (events ++ [event]) w' text' es' state' := by
  have ha : Addition.IsReadable ⟨event.kind, event.encode.settled, now.asRead⟩ :=
    ⟨SaleEvent.isValue_settled hevent, Nat.lt_of_le_of_lt (SaleEvent.depth_settled_le hevent) (by decide),
      hnow.isReading_asRead⟩
  have hlength : es.length = events.length := h.records.length_eq
  have hfile := h.file.append ha (by omega)
  have hsink := Sink.emit_journal w text hevent now
  have hrecords : Records (w.next event.kind event.encode.settled now.asRead).1 event :=
    ⟨rfl, SaleEvent.decode_settled hevent⟩
  have hsale : (w.next event.kind event.encode.settled now.asRead).2.saleId = w.saleId := rfl
  simp only at hfile
  generalize w.next event.kind event.encode.settled now.asRead = next at *
  refine ⟨next.2, appended text next.1, es ++ [next.1], _, rfl, hsale, ?_⟩
  rw [h.sink_eq, hsink]
  exact {
    file := hfile
    sink_eq := rfl
    content_eq := by simp [Sink.journalText?]
    text_eq := by simp
    records := List.rel_append h.records (.cons hrecords .nil) }

/-- The sink that is opened for the file is the one that was closed. -/
theorem openJournal (path : String) (h : KeptJournal events w text es state) :
    Sink.openJournal path w.saleId state.1 = .ok state.2 := by
  rw [h.content_eq, h.sink_eq, Sink.openJournal]
  split
  next hnone =>
    have hes : es = [] := by
      have hrecords := h.records
      rw [hnone] at hrecords
      exact List.forall₂_nil_right_iff.1 hrecords
    have hfresh : JournalWriter.fresh w.saleId = w := by
      have hbehind := h.file.behind.eq_behind
      rwa [hes] at hbehind
    rw [JournalWriter.resume, hfresh, h.text_eq hnone]
    rfl
  next =>
    rw [JournalWriter.resume_ok_iff.2 ⟨rfl, es, h.file.entries, h.file.behind⟩]
    rfl

/-- A journal is kept over all uses. -/
theorem foldlM (path : String) {uses : List JournalUse} (h : KeptJournal events w text es state)
    (huses : ∀ u ∈ uses, u.IsHeld)
    (hfits : events.length + (uses.filterMap JournalUse.event?).length ≤ Nat.pow 2 64) :
    ∃ w' text' es' state', uses.foldlM (JournalUse.step path w.saleId) state = .ok state' ∧
      KeptJournal (events ++ uses.filterMap JournalUse.event?) w' text' es' state' := by
  induction uses generalizing events w text es state with
  | nil => exact ⟨w, text, es, state, rfl, by simpa using h⟩
  | cons u uses ih =>
      obtain ⟨hu, hothers⟩ := List.forall_mem_cons.1 huses
      cases u with
      | emit event now =>
          simp only [List.filterMap_cons, JournalUse.event?, List.length_cons] at hfits ⊢
          obtain ⟨w', text', es', state', hstep, hsale, hkept⟩ :=
            h.emit path hu.1 hu.2 (by omega)
          obtain ⟨w'', text'', es'', state'', hrest, hkept'⟩ := ih hkept hothers
            (by rw [List.length_append, List.length_singleton]; omega)
          rw [hsale] at hrest
          refine ⟨w'', text'', es'', state'', ?_, by simpa using hkept'⟩
          rw [List.foldlM_cons, hstep]
          exact hrest
      | reopen =>
          obtain ⟨w', text', es', state', hrest, hkept⟩ := ih h hothers hfits
          refine ⟨w', text', es', state', ?_, hkept⟩
          rw [List.foldlM_cons, JournalUse.step, h.openJournal path]
          exact hrest

end KeptJournal

/-- **A journal replays the events that were sent to it**, however often its
sink was closed and opened again: its file verifies with one entry for each,
numbered from zero and of its kind, and reading the entries back gives the
events in order.  The file is made with the first of them. -/
theorem replays_events (path : String) (saleId : Uuid) {uses : List JournalUse}
    (huses : ∀ u ∈ uses, u.IsHeld)
    (hfits : (uses.filterMap JournalUse.event?).length ≤ Nat.pow 2 64) :
    ∃ content sink, JournalUse.run path saleId uses = .ok (content, sink) ∧
      (uses.filterMap JournalUse.event? = [] →
        content = none ∧ verifyJournal path content = .error (.unreadable path)) ∧
      (uses.filterMap JournalUse.event? ≠ [] → ∃ text es, content = some text ∧
        verifyJournal path content = .ok (.intact (uses.filterMap JournalUse.event?).length) ∧
        entriesOf text = .ok es ∧
        es.map (·.seq) = List.range (uses.filterMap JournalUse.event?).length ∧
        es.map (·.kind) = (uses.filterMap JournalUse.event?).map SaleEvent.kind ∧
        es.mapM (fun e => SaleEvent.decode e.payload) =
          .ok (uses.filterMap JournalUse.event?)) := by
  obtain ⟨w, text, es, ⟨content, sink⟩, hrun, hkept⟩ :=
    (KeptJournal.fresh saleId).foldlM path huses (by simpa using hfits)
  rw [List.nil_append] at hkept
  generalize uses.filterMap JournalUse.event? = events at hkept ⊢
  have hlength : es.length = events.length := hkept.records.length_eq
  have hcontent : content = if events = [] then none else some text := hkept.content_eq
  refine ⟨content, sink, hrun, fun hnone => ?_, fun hsome => ?_⟩
  · rw [if_pos hnone] at hcontent
    exact ⟨hcontent, hcontent ▸ rfl⟩
  rw [if_neg hsome] at hcontent
  refine ⟨text, es, hcontent, ?_, hkept.file.entries, ?_, map_kind_of_records hkept.records,
    mapM_decode_of_records hkept.records⟩
  · rw [hcontent, verifyJournal, hkept.file.check_eq, hlength]
    rfl
  · rw [map_seq_of_checkChainFrom hkept.file.behind.intact, hlength, List.range_eq_range']

/-- Two events, with the sink closed and opened between them. -/
def Sample.uses : List JournalUse :=
  [.emit (.paused 2) noon, .reopen, .emit (.configChanged "a \"line\"\nbreak\x01" 3) noon]

/-- They come back from the journal. -/
theorem replays_events_reopened : ∃ text sink es,
    JournalUse.run "journal" Sample.noteSale Sample.uses = .ok (some text, sink) ∧
      verifyJournal "journal" (some text) = .ok (.intact 2) ∧ entriesOf text = .ok es ∧
      es.map (·.kind) = ["PAUSED", "CONFIG_CHANGED"] ∧
      es.mapM (fun e => SaleEvent.decode e.payload) =
        .ok [.paused 2, .configChanged "a \"line\"\nbreak\x01" 3] := by
  have htime : Sample.noon.InRange := ⟨by decide, by decide⟩
  have huses : ∀ u ∈ Sample.uses, u.IsHeld := by
    simp only [Sample.uses, List.forall_mem_cons, JournalUse.IsHeld, SaleEvent.Fits]
    exact ⟨⟨by decide, htime⟩, trivial, ⟨by decide, htime⟩, List.forall_mem_nil _⟩
  obtain ⟨content, sink, hrun, -, hsome⟩ :=
    replays_events "journal" Sample.noteSale huses (by decide)
  obtain ⟨text, es, rfl, hverify, hentries, -, hkinds, hevents⟩ :=
    hsome (by simp [Sample.uses, JournalUse.event?])
  exact ⟨text, sink, es, hrun, hverify, hentries, hkinds, hevents⟩

/-- **Without an event there is no file**, and nothing to verify. -/
theorem no_file_without_events :
    JournalUse.run "journal" Sample.noteSale [] =
        .ok (none, .journal (.fresh Sample.noteSale) "") ∧
      verifyJournal "journal" none = .error (.unreadable "journal") := ⟨rfl, rfl⟩

end TokenSale
