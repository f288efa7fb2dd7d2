import TokenSale.Proofs.Services
import TokenSale.Proofs.SettlementScript

/-!
# TokenSale.Proofs.FanOut

Events that are sent to several logs.  A caller is told that an event was taken
only if every log took it, and sends it again otherwise: a log that took it
alone then holds it more than once.

* `Delivery`, `RecordedRun` — runs in which logs take or refuse the events;
* `Recorded` — a log holds the events of the deliveries it took;
* `RecordedRun.accepted_eq` — the events that callers were told about;
* `RecordedRun.ofWorld` — running an operation in a world is one of the runs;
* `accounting_events_recorded` — a settled purchase has each of its events in
  every log, and again for every delivery that only some of the logs took.
-/

namespace TokenSale

/-! ## one delivery -/

namespace EventLog

/-- Whether the log takes the next event. -/
def takes (l : EventLog) : Bool := !l.failures.take.1

/-- The log once an event was sent to it. -/
def after (l : EventLog) (e : SaleEvent) : EventLog :=
  if l.takes then { l with events := l.events ++ [e] }
  else { l with failures := l.failures.take.2 }

/-- A log takes an event or refuses it, as its failures say. -/
theorem emit_eq (l : EventLog) (e : SaleEvent) : l.emit e =
    (if l.takes then .ok () else .error ⟨.eventSink, "injected failure"⟩, l.after e) := by
  unfold emit takes after takes
  obtain ⟨fails, failures⟩ := l.failures.take
  cases fails <;> rfl

/-- A log that refuses keeps what it holds. -/
theorem events_after (l : EventLog) (e : SaleEvent) :
    (l.after e).events = l.events ++ if l.takes then [e] else [] := by
  unfold after
  split <;> simp

end EventLog

/-- The event that an effect tells. -/
def Effect.event? : Effect → Option SaleEvent
  | emit event => some event
  | _ => none

/-- Whether an event is told on behalf of a purchase. -/
def SaleEvent.concerns (id : Uuid) (e : SaleEvent) : Bool :=
  (Effect.emit e).purchaseId? = some id

/-- An event that was sent to all logs, and which of them took it. -/
structure Delivery where
  event : SaleEvent
  takenBy : List Bool

namespace Delivery

/-- An event that is sent to logs. -/
def toLogs (e : SaleEvent) (ls : List EventLog) : Delivery := ⟨e, ls.map EventLog.takes⟩

/-- All logs took it; this is what the caller is told. -/
def isTaken (d : Delivery) : Bool := d.takenBy.all id

/-- One log took it. -/
def isTakenAt (j : Nat) (d : Delivery) : Bool := d.takenBy[j]? == some true

/-- The logs took it or refused it together. -/
def IsWhole (d : Delivery) : Prop := ∀ a ∈ d.takenBy, ∀ b ∈ d.takenBy, a = b

/-- What counts as taken was taken by every log. -/
theorem isTakenAt_of_isTaken {d : Delivery} {j : Nat} (hj : j < d.takenBy.length)
    (h : d.isTaken = true) : d.isTakenAt j = true := by
  have hall := List.all_eq_true.1 h _ (List.getElem_mem hj)
  simpa [isTakenAt, List.getElem?_eq_getElem hj] using hall

/-- A whole delivery that one log took counts as taken. -/
theorem IsWhole.isTaken {d : Delivery} (h : d.IsWhole) {j : Nat} (hj : d.isTakenAt j = true) :
    d.isTaken = true := by
  simp only [isTakenAt, beq_iff_eq] at hj
  exact List.all_eq_true.2 fun b hb => h b hb true (List.mem_of_getElem? hj)

end Delivery

/-- All logs are told of an event; the caller, that they took it or that one did
not. -/
theorem Sink.emitAll_logs (e : SaleEvent) (now : Instant) (ls : List EventLog) :
    ∃ a, Sink.emitAll e now (ls.map .log) = (a, (ls.map (·.after e)).map .log) ∧
      (a = .ok () ↔ (Delivery.toLogs e ls).isTaken = true) := by
  induction ls with
  | nil => exact ⟨.ok (), rfl, by simp [Delivery.isTaken, Delivery.toLogs]⟩
  | cons l ls ih =>
      obtain ⟨a, ha, htold⟩ := ih
      simp only [List.map_cons, emitAll, emit, EventLog.emit_eq, ha]
      refine ⟨_, rfl, ?_⟩
      have htaken : (Delivery.toLogs e (l :: ls)).isTaken =
          (l.takes && (Delivery.toLogs e ls).isTaken) := rfl
      rw [htaken]
      cases l.takes <;> simp [htold]

/-! ## runs with logs -/

/-- The deliveries that an occurrence makes to logs. -/
def Event.deliveries (ls : List EventLog) : Event → List Delivery
  | answer _ _ (.effect (.emit event)) _ => [.toLogs event ls]
  | _ => []

/-- The logs answer the calls that send them events, and nothing else concerns them. -/
def EventLog.See (ls : List EventLog) (now : Instant) (e : Event) (ls' : List EventLog) : Prop :=
  match e with
  | .answer _ _ (.effect (.emit event)) a =>
    Sink.emitAll event now (ls.map .log) = (a, ls'.map .log)
  | _ => ls' = ls

/-- An occurrence sends an event to all logs, or is of no concern to them. -/
theorem EventLog.see_cases {ls ls' : List EventLog} {now : Instant} {e : Event}
    (h : See ls now e ls') :
    (∃ i o event a, e = .answer i o (.effect (.emit event)) a ∧ ls' = ls.map (·.after event) ∧
      (a = .ok () ↔ (Delivery.toLogs event ls).isTaken = true)) ∨
    ls' = ls ∧ e.deliveries ls = [] ∧ ∀ id, (e.accepted? id).bind Effect.event? = none := by
  cases e with
  | answer i o c a =>
      cases c with
      | effect x =>
          cases x with
          | emit event =>
              obtain ⟨a', ha, htold⟩ := Sink.emitAll_logs event now ls
              rw [See, ha, Prod.mk.injEq, List.map_inj_right fun _ _ h => Sink.log.inj h] at h
              obtain ⟨rfl, rfl⟩ := h
              exact .inl ⟨i, o, event, a', rfl, rfl, htold⟩
          | issue | forward | refund =>
              refine .inr ⟨h, rfl, fun id => ?_⟩
              cases a <;> simp [Event.accepted?, Effect.event?]
      | compliance | rate => exact .inr ⟨h, rfl, fun _ => rfl⟩
  | tick | begin | lock | finish => exact .inr ⟨h, rfl, fun _ => rfl⟩

/-- What happened from one moment to another in a sale whose events go to logs;
anybody may make their next calls fail. -/
inductive RecordedRun (clock : Instant → Instant → Prop) (s : System) (ls : List EventLog) :
    List Event → List Delivery → System → List EventLog → Prop
  | refl : RecordedRun clock s ls [] [] s ls
  | step {es : List Event} {ds : List Delivery} {s' s'' : System} {ls' ls'' : List EventLog}
    {e : Event} (h : RecordedRun clock s ls es ds s' ls') (hs : Step clock s' e s'')
    (hls : EventLog.See ls' s'.now e ls'') :
    RecordedRun clock s ls (es ++ [e]) (ds ++ e.deliveries ls') s'' ls''
  | rig {es : List Event} {ds : List Delivery} {s' : System} {ls' ls'' : List EventLog}
    (h : RecordedRun clock s ls es ds s' ls')
    (hls : ls''.map EventLog.events = ls'.map EventLog.events) :
    RecordedRun clock s ls es ds s' ls''

namespace RecordedRun

variable {clock : Instant → Instant → Prop} {s s' s'' : System} {ls ls' ls'' : List EventLog}
  {es es' : List Event} {ds ds' : List Delivery}

/-- It is a run of the sale. -/
theorem run (h : RecordedRun clock s ls es ds s' ls') : Run clock s es s' := by
  induction h with
  | refl => exact .refl
  | step _ hs _ ih => exact ih.step hs
  | rig _ _ ih => exact ih

theorem append (h : RecordedRun clock s ls es ds s' ls')
    (h' : RecordedRun clock s' ls' es' ds' s'' ls'') :
    RecordedRun clock s ls (es ++ es') (ds ++ ds') s'' ls'' := by
  induction h' with
  | refl => simpa using h
  | step _ hs hls ih => simpa using ih.step hs hls
  | rig _ hls ih => exact ih.rig hls

end RecordedRun

/-! ## what logs hold -/

/-- The logs hold the events of the deliveries they took. -/
structure Recorded (ds : List Delivery) (ls : List EventLog) : Prop where
  length_eq : ∀ d ∈ ds, d.takenBy.length = ls.length
  events_eq : ∀ j l, ls[j]? = some l → l.events = (ds.filter (·.isTakenAt j)).map (·.event)

namespace Recorded

variable {ds : List Delivery} {ls ls' : List EventLog}

theorem empty (n : Nat) : Recorded [] (List.replicate n .empty) where
  length_eq := by simp
  events_eq j l hl := by
    rw [List.getElem?_replicate] at hl
    split at hl
    · cases hl
      rfl
    · contradiction

/-- One more event is sent to them. -/
theorem deliver (h : Recorded ds ls) (e : SaleEvent) :
    Recorded (ds ++ [.toLogs e ls]) (ls.map (·.after e)) where
  length_eq d hd := by
    rw [List.length_map]
    obtain hd | hd := List.mem_append.1 hd
    · exact h.length_eq d hd
    · simp [List.mem_singleton.1 hd, Delivery.toLogs]
  events_eq j l' hl' := by
    rw [List.getElem?_map] at hl'
    obtain ⟨l, hl, rfl⟩ := Option.map_eq_some_iff.1 hl'
    have htaken : (Delivery.toLogs e ls).isTakenAt j = l.takes := by
      simp [Delivery.isTakenAt, Delivery.toLogs, hl]
    rw [EventLog.events_after, h.events_eq j l hl, List.filter_append, List.filter_singleton,
      htaken, List.map_append]
    cases l.takes <;> rfl

/-- What one event delivers joins what was recorded. -/
theorem see (h : Recorded ds ls) {now : Instant} {e : Event} (hls : EventLog.See ls now e ls') :
    Recorded (ds ++ e.deliveries ls) ls' := by
  obtain ⟨i, o, event, a, rfl, rfl, -⟩ | ⟨rfl, hnone, -⟩ := EventLog.see_cases hls
  · exact h.deliver event
  · rwa [hnone, List.append_nil]

theorem rig (h : Recorded ds ls) (hls : ls'.map EventLog.events = ls.map EventLog.events) :
    Recorded ds ls' where
  length_eq d hd := by
    have hlength := congrArg List.length hls
    rw [List.length_map, List.length_map] at hlength
    rw [h.length_eq d hd, hlength]
  events_eq j l' hl' := by
    have hj := congrArg (·[j]?) hls
    simp only [List.getElem?_map, hl', Option.map_some] at hj
    obtain ⟨l, hl, hevents⟩ := Option.map_eq_some_iff.1 hj.symm
    rw [← hevents, h.events_eq j l hl]

end Recorded

/-- **Every log holds what was delivered to its sink and taken there.** -/
theorem RecordedRun.recorded {clock : Instant → Instant → Prop} {s s' : System} {n : Nat}
    {es : List Event} {ds : List Delivery} {ls : List EventLog}
    (h : RecordedRun clock s (List.replicate n .empty) es ds s' ls) : Recorded ds ls := by
  induction h with
  | refl => exact .empty n
  | step _ _ hls ih => exact ih.see hls
  | rig _ hls ih => exact ih.rig hls

/-! ## what callers were told -/

/-- Events on behalf of a purchase are told by those who settle it. -/
theorem Answered.settles_of_purchaseId? {o : Operation} {h h' : Holding} {c : Call} {a : c.Answer}
    (ha : Answered o h c a h') {event : SaleEvent} (hc : c = .effect (.emit event)) {id : Uuid}
    (hid : (Effect.emit event).purchaseId? = some id) : o.settles = true := by
  cases ha with
  | landed ho | refused ho => exact ho
  | announced hnone =>
      cases hc
      rw [hid] at hnone
      contradiction
  | finalAnnounced =>
      cases hc
      contradiction
  | compliance | rate | issued | notIssued => cases hc

/-- A telling counts as accepted for a purchase exactly if it is about it and was
taken. -/
theorem Event.accepted?_emit {id : Uuid} {i : Nat} {o : Operation} {event : SaleEvent}
    {a : Except CollaboratorError Unit}
    (ho : (Effect.emit event).purchaseId? = some id → o.settles = true) :
    (Event.accepted? id (.answer i o (.effect (.emit event)) a)).bind Effect.event? =
      if a = .ok () ∧ event.concerns id = true then some event else none := by
  cases a with
  | error e => simp [accepted?]
  | ok u =>
      by_cases hid : (Effect.emit event).purchaseId? = some id
      · simp [accepted?, SaleEvent.concerns, hid, ho hid, Effect.event?]
      · simp [accepted?, SaleEvent.concerns, hid]

/-- The event is told on behalf of a purchase. -/
def Delivery.concerns (id : Uuid) (d : Delivery) : Bool := d.event.concerns id

/-- One occurrence. -/
theorem Tracked.Step.accepted_eq {clock : Instant → Instant → Prop} {g g' : Tracked} {e : Event}
    (hs : Tracked.Step clock g e g') {ls ls' : List EventLog} {now : Instant}
    (hls : EventLog.See ls now e ls') (id : Uuid) :
    ((e.accepted? id).bind Effect.event?).toList =
      ((e.deliveries ls).filter fun d => d.concerns id && d.isTaken).map (·.event) := by
  obtain ⟨i, o, event, a, rfl, -, htold⟩ | ⟨-, hnone, haccepted⟩ := EventLog.see_cases hls
  · have ho : (Effect.emit event).purchaseId? = some id → o.settles = true := by
      intro hid
      cases hs with
      | answer ha => exact ha.settles_of_purchaseId? rfl hid
    rw [Event.accepted?_emit ho, Event.deliveries, List.filter_singleton]
    have hconcerns : (Delivery.toLogs event ls).concerns id = event.concerns id := rfl
    simp only [htold, hconcerns]
    cases (Delivery.toLogs event ls).isTaken <;> cases event.concerns id <;> rfl
  · rw [hnone, haccepted]
    rfl

/-- **What was accepted on behalf of a purchase are the events that all logs
took**, whoever told them. -/
theorem RecordedRun.accepted_eq {clock : Instant → Instant → Prop} {t : Instant} {s : System}
    {ls₀ ls : List EventLog} {es : List Event} {ds : List Delivery}
    (h : RecordedRun clock (.start t) ls₀ es ds s ls) (id : Uuid) :
    (accepted id es).filterMap Effect.event? =
      (ds.filter fun d => d.concerns id && d.isTaken).map (·.event) := by
  suffices hall : ∃ g : Tracked, g.Tracks s ∧ (accepted id es).filterMap Effect.event? =
      (ds.filter fun d => d.concerns id && d.isTaken).map (·.event) from hall.choose_spec.2
  induction h with
  | refl => exact ⟨.start t, Tracked.tracks_start t, rfl⟩
  | step _ hs hls ih =>
      obtain ⟨g, hg, ih⟩ := ih
      obtain ⟨g', hs', hg'⟩ := hs.tracked hg
      refine ⟨g', hg', ?_⟩
      rw [accepted_append, List.filterMap_append, ih, List.filter_append, List.map_append,
        ← hs'.accepted_eq hls id]
      cases Event.accepted? id _ with
      | none => rfl
      | some x => cases x <;> rfl
  | rig _ _ ih => exact ih

/-! ## the events of a purchase -/

namespace PurchaseRecord

/-- The events of a purchase whose payment went to a destination: one for every
fill, one for the payment, and one for the refund if there is any. -/
def accountingEvents (r : PurchaseRecord) (destination : String) : List SaleEvent :=
  r.plan.fills.map r.fillEvent ++
  .fundsReceived r.purchaseId r.plan.currency r.plan.result.fundsConsumed destination ::
    if r.hasRefund then
      [.refunded r.purchaseId r.buyer r.plan.currency r.plan.result.fundsRefunded]
    else []

/-- The calls that settle a purchase tell its events. -/
theorem events_of_settlementCalls (r : PurchaseRecord) (destination told : String) :
    (r.settlementCalls destination told).filterMap Effect.event? = r.accountingEvents told := by
  have hfills : (r.plan.fills.map fun f => Effect.emit (r.fillEvent f)).filterMap Effect.event? =
      r.plan.fills.map r.fillEvent := by
    simp [List.filterMap_map, Function.comp_def, Effect.event?]
  rw [settlementCalls, List.filterMap_append, List.filterMap_append, hfills, accountingEvents,
    List.append_assoc]
  by_cases hz : r.plan.result.fundsRefunded.val = 0
  · rw [if_pos hz, hasRefund_eq_false_iff.2 hz]
    rfl
  · rw [if_neg hz, hasRefund_eq_true_iff.2 hz]
    rfl

end PurchaseRecord

/-! ## every log -/

/-- The events that a log holds on behalf of a purchase. -/
def EventLog.eventsOf (id : Uuid) (l : EventLog) : List SaleEvent :=
  l.events.filter (·.concerns id)

/-- The events on behalf of a purchase that a log took though another one
refused them. -/
def takenApart (id : Uuid) (j : Nat) (ds : List Delivery) : List SaleEvent :=
  (ds.filter fun d => d.concerns id && d.isTakenAt j && !d.isTaken).map (·.event)

namespace Recorded

variable {ds : List Delivery} {ls : List EventLog} {j : Nat} {l : EventLog}

/-- The events of a purchase in one log, read off the deliveries. -/
theorem eventsOf_eq (h : Recorded ds ls) (hl : ls[j]? = some l) (id : Uuid) :
    l.eventsOf id = (ds.filter fun d => d.concerns id && d.isTakenAt j).map (·.event) := by
  rw [EventLog.eventsOf, h.events_eq j l hl, List.filter_map, List.filter_filter]
  rfl

/-- What all logs took, this one did. -/
theorem filter_isTaken (h : Recorded ds ls) (hl : ls[j]? = some l) (id : Uuid) :
    (ds.filter fun d => d.concerns id && d.isTakenAt j).filter (·.isTaken) =
      ds.filter fun d => d.concerns id && d.isTaken := by
  rw [List.filter_filter]
  refine List.filter_congr fun d hd => ?_
  obtain ⟨hj, -⟩ := List.getElem?_eq_some_iff.1 hl
  rw [← h.length_eq d hd] at hj
  cases htaken : d.isTaken with
  | false => simp
  | true => simp [Delivery.isTakenAt_of_isTaken hj htaken]

/-- **What a log holds on behalf of a purchase** are the events that all logs
took, and those that were taken apart. -/
theorem perm_eventsOf (h : Recorded ds ls) (hl : ls[j]? = some l) (id : Uuid) :
    (l.eventsOf id).Perm
      ((ds.filter fun d => d.concerns id && d.isTaken).map (·.event) ++ takenApart id j ds) := by
  have hsplit := List.filter_append_perm (·.isTaken)
    (ds.filter fun d => d.concerns id && d.isTakenAt j)
  rw [h.filter_isTaken hl, List.filter_filter] at hsplit
  have hapart : takenApart id j ds = (ds.filter fun d =>
      !d.isTaken && (d.concerns id && d.isTakenAt j)).map (·.event) := by
    simp only [takenApart, Bool.and_comm]
  rw [h.eventsOf_eq hl, hapart, ← List.map_append]
  exact (hsplit.map _).symm

/-- The former alone, when the logs took or refused every event together. -/
theorem eventsOf_of_whole (h : Recorded ds ls) (hl : ls[j]? = some l) {id : Uuid}
    (hwhole : ∀ d ∈ ds, d.concerns id = true → d.IsWhole) :
    l.eventsOf id = (ds.filter fun d => d.concerns id && d.isTaken).map (·.event) := by
  have hall : (ds.filter fun d => d.concerns id && d.isTakenAt j).filter (·.isTaken) =
      ds.filter fun d => d.concerns id && d.isTakenAt j := by
    refine List.filter_eq_self.2 fun d hd => ?_
    obtain ⟨hmem, hd⟩ := List.mem_filter.1 hd
    obtain ⟨hconcerns, htaken⟩ := Bool.and_eq_true_iff.1 hd
    exact (hwhole d hmem hconcerns).isTaken htaken
  rw [h.eventsOf_eq hl, ← hall, h.filter_isTaken hl]

end Recorded

/-! ## logs of a world -/

namespace EventLog

/-- The same number of next calls of each log fail. -/
def FailTogether (ls : List EventLog) : Prop := ∀ l ∈ ls, ∀ l' ∈ ls, l.failures = l'.failures

/-- An emission uses up one of the failures that were left. -/
theorem failures_after (l : EventLog) (e : SaleEvent) : (l.after e).failures =
    if l.failures.take.1 then l.failures.take.2 else l.failures := by
  unfold after takes
  cases l.failures.take.1 <;> rfl

/-- Such logs take or refuse every event together. -/
theorem FailTogether.see {ls ls' : List EventLog} {now : Instant} {e : Event}
    (h : FailTogether ls) (hls : See ls now e ls') :
    FailTogether ls' ∧ ∀ d ∈ e.deliveries ls, d.IsWhole := by
  obtain ⟨i, o, event, a, rfl, rfl, -⟩ | ⟨rfl, hnone, -⟩ := see_cases hls
  · constructor
    · simp only [FailTogether, List.forall_mem_map, failures_after]
      intro l hl l' hl'
      rw [h l hl l' hl']
    · simp only [Event.deliveries, List.forall_mem_singleton, Delivery.IsWhole, Delivery.toLogs,
        List.forall_mem_map, takes]
      intro l hl l' hl'
      rw [h l hl l' hl']
  · exact ⟨h, by simp [hnone]⟩

end EventLog

/-- Sinks that are logs remain logs. -/
theorem World.Sees.logs {w w' : World} {e : Event} (h : w.Sees e w') {ls : List EventLog}
    (hls : w.sinks = ls.map .log) :
    ∃ ls', w'.sinks = ls'.map .log ∧ EventLog.See ls w.now e ls' := by
  cases e with
  | answer i o c a =>
      have hw : w.serve c = (a, w') := h
      cases c with
      | compliance investor =>
          cases hw
          exact ⟨ls, hls, rfl⟩
      | rate currency =>
          refine ⟨ls, ?_, rfl⟩
          rw [← hls, show w' = (w.serve (.rate currency)).2 by rw [hw], serve]
          split <;> rfl
      | effect x =>
          cases x with
          | emit event =>
              obtain ⟨a', ha, -⟩ := Sink.emitAll_logs event w.now ls
              simp only [serve, perform, hls, ha] at hw
              cases hw
              exact ⟨_, rfl, ha⟩
          | issue | forward | refund =>
              cases hw
              exact ⟨ls, hls, rfl⟩
  | tick | begin | lock | finish =>
      obtain ⟨book, rfl⟩ := h
      exact ⟨ls, hls, rfl⟩

/-- **Running an operation in a world with logs is one of the runs**; logs that
fail together still do, and took or refused every event together. -/
theorem RecordedRun.ofWorld (clock : Instant → Instant → Prop) (i : Nat) (o : Operation)
    {s : System} {w : World} {ls : List EventLog} (hls : w.sinks = ls.map .log)
    (h : s.sessions i = none) (hbook : w.book = s.book) (hnow : w.now = s.now) :
    ∃ es ds ls', (World.run o.program w).2.sinks = ls'.map .log ∧
      RecordedRun clock s ls (.begin i o :: es ++ [.finish i o (World.run o.program w).1]) ds
        { s with book := (World.run o.program w).2.book } ls' ∧
      (EventLog.FailTogether ls → EventLog.FailTogether ls' ∧ ∀ d ∈ ds, d.IsWhole) := by
  refine World.run_operation clock (P := fun es s' w' => ∃ ds ls', w'.sinks = ls'.map .log ∧
    RecordedRun clock s ls es ds s' ls' ∧
    (EventLog.FailTogether ls → EventLog.FailTogether ls' ∧ ∀ d ∈ ds, d.IsWhole)) ?_ i o
    ⟨[], ls, hls, .refl, fun htogether => ⟨htogether, by simp⟩⟩ h hbook hnow
  rintro es s' w' e s'' w'' ⟨ds, ls', hls', hrun, hwhole⟩ hnow hs hw
  obtain ⟨ls'', hls'', hsee⟩ := hw.logs hls'
  rw [hnow] at hsee
  refine ⟨ds ++ e.deliveries ls', ls'', hls'', hrun.step hs hsee, fun htogether => ?_⟩
  obtain ⟨htogether', hds⟩ := hwhole htogether
  obtain ⟨htogether'', hdeliveries⟩ := htogether'.see hsee
  exact ⟨htogether'', List.forall_mem_append.2 ⟨hds, hdeliveries⟩⟩

/-- A run goes on with an operation in a world. -/
theorem RecordedRun.andRun {clock : Instant → Instant → Prop} {s : System} {w : World}
    {ls₀ ls : List EventLog} {es : List Event} {ds : List Delivery}
    (h : RecordedRun clock s ls₀ es ds w.system ls) (hls : w.sinks = ls.map .log) (o : Operation) :
    ∃ es' ds' ls', (World.run o.program w).2.sinks = ls'.map .log ∧
      RecordedRun clock s ls₀ es' (ds ++ ds') (World.run o.program w).2.system ls' ∧
      (EventLog.FailTogether ls → EventLog.FailTogether ls' ∧ ∀ d ∈ ds', d.IsWhole) := by
  obtain ⟨es', ds', ls', hls', h', hwhole⟩ := RecordedRun.ofWorld clock 0 o
    (s := w.system) (w := w) hls rfl rfl rfl
  exact ⟨_, ds', ls', hls', h.append (w.system_run o ▸ h'), hwhole⟩

/-! ## a sale with two logs -/

/-- They are empty, and the sale is still to be configured. -/
def Sample.twoLogs : World := { Sample.world with sinks := [.emptyLog, .emptyLog] }

/-- Either log once the sale was configured. -/
def Sample.configuredLog : EventLog :=
  ⟨(World.run (Operation.configure config specs).program twoLogs).2.events, .none⟩

/-- The sale is configured and open, and the next events will be refused by the
first log and by the second as often as told. -/
def Sample.refusing (first second : Nat) : World :=
  { (World.run (Operation.configure config specs).program twoLogs).2.setTime Sample.open with
    sinks := [.log { configuredLog with failures := ⟨first⟩ },
      .log { configuredLog with failures := ⟨second⟩ }] }

/-- One purchase was made, and one retry under an identity. -/
def Sample.retried (id : Uuid) (first second : Nat) : World :=
  (World.run (Operation.retrySettlement id).program
    (World.run (Operation.purchase request).program (refusing first second)).2).2

/-- The sale comes to that. -/
theorem Sample.run_retried (id : Uuid) (first second : Nat) : ∃ es ds ls,
    (retried id first second).sinks = ls.map .log ∧
    RecordedRun Forward (.start early) (List.replicate 2 .empty) es ds
      (retried id first second).system ls ∧
    (first = second → ∀ d ∈ ds, d.IsWhole) := by
  have hstart : RecordedRun Forward (.start early) (List.replicate 2 .empty) [] []
      twoLogs.system (List.replicate 2 .empty) := .refl
  obtain ⟨es₁, ds₁, ls₁, hls₁, h₁, hwhole₁⟩ := hstart.andRun rfl (.configure config specs)
  have hboth : ls₁ = [configuredLog, configuredLog] := by
    have hsinks : (World.run (Operation.configure config specs).program twoLogs).2.sinks =
        [configuredLog, configuredLog].map .log := rfl
    rw [hsinks, List.map_inj_right fun _ _ h => Sink.log.inj h] at hls₁
    exact hls₁.symm
  subst hboth
  have h₂ := h₁.step (.tick (show early ≤ Sample.open by decide)) rfl
  have h₃ : RecordedRun Forward (.start early) (List.replicate 2 .empty) _ _
      (refusing first second).system [{ configuredLog with failures := ⟨first⟩ },
        { configuredLog with failures := ⟨second⟩ }] := h₂.rig rfl
  obtain ⟨es₄, ds₄, ls₄, hls₄, h₄, hwhole₄⟩ := h₃.andRun rfl (.purchase request)
  obtain ⟨es₅, ds₅, ls₅, hls₅, h₅, hwhole₅⟩ := h₄.andRun hls₄ (.retrySettlement id)
  refine ⟨_, _, ls₅, hls₅, h₅, ?_⟩
  rintro rfl
  obtain ⟨-, hds₁⟩ := hwhole₁ (by simp [EventLog.FailTogether])
  obtain ⟨htogether, hds₄⟩ := hwhole₄ (by simp [EventLog.FailTogether])
  obtain ⟨-, hds₅⟩ := hwhole₅ htogether
  simp only [Event.deliveries, List.nil_append, List.append_nil, List.forall_mem_append]
  exact ⟨⟨hds₁, hds₄⟩, hds₅⟩

/-! ## every run -/

/-- **Every log has the events of a settled purchase**, whatever callers do and
whichever calls fail: one for every fill, one for the payment and one for the
refund, and beyond these only events that it took though another log refused
them.  Logs that take or refuse every event together have each of them once. -/
theorem accounting_events_recorded {clock : Instant → Instant → Prop} {t : Instant} {n : Nat}
    {es : List Event} {ds : List Delivery} {s : System} {ls : List EventLog}
    (h : RecordedRun clock (.start t) (List.replicate n .empty) es ds s ls) {id : Uuid}
    {r : PurchaseRecord} (hr : s.book.purchases.get? id = some r) (hsettled : r.isSettled = true) :
    ∃ destination, ∀ (j : Nat) (l : EventLog), ls[j]? = some l →
      (l.eventsOf id).Perm (r.accountingEvents destination ++ takenApart id j ds) ∧
      ((∀ d ∈ ds, d.concerns id = true → d.IsWhole) →
        l.eventsOf id = r.accountingEvents destination) := by
  obtain ⟨g, haccount, hg⟩ := h.run.account
  rw [← hg.1] at hr
  obtain ⟨destination, told, hcalls⟩ :=
    PurchaseRecord.settlementCalls_of_performs ((haccount id).performs_script hr hsettled)
  have hevents := h.accepted_eq id
  rw [hcalls, PurchaseRecord.events_of_settlementCalls] at hevents
  refine ⟨told, fun j l hl => ⟨?_, fun hwhole => ?_⟩⟩
  · rw [hevents]
    exact h.recorded.perm_eventsOf hl id
  · rw [hevents]
    exact h.recorded.eventsOf_of_whole hl hwhole

/-- A purchase whose first event both logs refused once: after the retry each of
them has every event once. -/
theorem accounting_events_recorded_after_refusal : ∃ es ds s ls r destination,
    RecordedRun Forward (.start Sample.early) (List.replicate 2 .empty) es ds s ls ∧
    s.book.purchases.get? ⟨7, by decide⟩ = some r ∧ r.isSettled = true ∧
    ∀ (j : Nat) (l : EventLog), ls[j]? = some l →
      l.eventsOf ⟨7, by decide⟩ = r.accountingEvents destination := by
  obtain ⟨es, ds, ls, -, h, hwhole⟩ := Sample.run_retried ⟨7, by decide⟩ 1 1
  have hr : ((Sample.retried ⟨7, by decide⟩ 1 1).book.purchases.get? ⟨7, by decide⟩).any
      (·.isSettled) = true := by
    decide +kernel
  generalize Sample.retried ⟨7, by decide⟩ 1 1 = w at h hr
  obtain ⟨r, hr, hsettled⟩ := (Option.any_eq_true ..).1 hr
  obtain ⟨destination, hevents⟩ := accounting_events_recorded h hr hsettled
  exact ⟨es, ds, w.system, ls, r, destination, h, hr, hsettled, fun j l hl =>
    (hevents j l hl).2 fun d hd _ => hwhole rfl d hd⟩

/-- **A log may have an event of a settled purchase twice**: the other one
refused it once. -/
theorem recorded_twice_after_refusal : ∃ es ds s ls l r,
    RecordedRun Forward (.start Sample.early) (List.replicate 2 .empty) es ds s ls ∧
    s.book.purchases.get? ⟨7, by decide⟩ = some r ∧ r.isSettled = true ∧
    ls[0]? = some l ∧ r.plan.fills.length = 1 ∧
    l.eventsOf ⟨7, by decide⟩ = r.plan.fills.map r.fillEvent ++ r.accountingEvents "vault" := by
  obtain ⟨es, ds, ls, hls, h, -⟩ := Sample.run_retried ⟨7, by decide⟩ 0 1
  have hr : ((Sample.retried ⟨7, by decide⟩ 0 1).book.purchases.get? ⟨7, by decide⟩).any (fun r =>
      r.isSettled ∧ r.plan.fills.length = 1 ∧
        (Sample.retried ⟨7, by decide⟩ 0 1).events.filter (·.concerns ⟨7, by decide⟩) =
          r.plan.fills.map r.fillEvent ++ r.accountingEvents "vault") = true := by
    decide +kernel
  generalize Sample.retried ⟨7, by decide⟩ 0 1 = w at hls h hr
  obtain ⟨r, hr, hevents⟩ := (Option.any_eq_true ..).1 hr
  obtain ⟨hsettled, hfills, hevents⟩ := of_decide_eq_true hevents
  cases ls with
  | nil => simp [World.events, hls, PurchaseRecord.accountingEvents] at hevents
  | cons l ls =>
      have hfirst : w.events = l.events := by simp [World.events, hls, Sink.events]
      rw [hfirst] at hevents
      exact ⟨es, ds, w.system, l :: ls, l, r, h, hr, hsettled, rfl, hfills, hevents⟩

end TokenSale
