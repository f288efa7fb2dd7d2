import TokenSale.Proofs.SettlementScript

/-!
# TokenSale.Proofs.AllOrNothing

A purchase is made as a whole or not at all.  Until its plan is committed its
caller only looks at the book and asks nobody for an effect; one step commits
it; and whatever happens from then on, its caller gets a receipt.

* `Program.Undecided`, `Program.Settling` — what is left of a purchase before
  and after its plan is committed;
* `Run.Each` — a run all of whose occurrences are of a kind;
* `PurchaseCourse` — how far the purchase of a caller has come in a run;
* `purchase_all_or_nothing` — what that means for its caller and for the book.
-/

namespace TokenSale

/-! ## a purchase stays filed -/

namespace Book

variable {b b' : Book} {record : PurchaseRecord} {id : Uuid}

/-- A purchase is on record as it was committed. -/
structure Holds (b : Book) (record : PurchaseRecord) : Prop where
  configured : b.terms.isSome
  filed : ∃ r, b.purchases.get? record.purchaseId = some r ∧ r.filed = record.filed

/-- A committed purchase is on record, and the version has grown by one. -/
theorem holds_of_commitPurchase {r : PurchaseRequest} {checked : Checked} {now : Instant}
    (h : b.commitPurchase r checked now = .ok (record, b')) :
    b'.Holds record ∧ b'.version = b.version + 1 := by
  obtain ⟨-, -, hpurchases, hterms⟩ := purchases_of_commitPurchase h
  refine ⟨⟨hterms, record, by rw [hpurchases, Directory.get?_insert_self], rfl⟩, ?_⟩
  obtain ⟨t, tiers, caps, unitsRaised, fundsRaised, tokensByCurrency, id, nextSeq, -, -, -, -, -, -,
    -, rfl⟩ := recordPlan_ok (commitPurchase_ok h).2.1
  rfl

/-- The settlement of a purchase that is on record can be attempted. -/
theorem Holds.beginSettlement (h : b.Holds record) :
    ∃ attempt b', b.beginSettlement record.purchaseId = .ok (attempt, b') ∧ b'.Holds record ∧
      b'.version = b.version := by
  obtain ⟨hterms, r, hr, hfiled⟩ := h
  obtain ⟨t, ht⟩ := Option.isSome_iff_exists.1 hterms
  unfold Book.beginSettlement
  simp only [ht, hr]
  split
  · exact ⟨_, _, rfl, ⟨hterms, r, hr, hfiled⟩, rfl⟩
  split
  · exact ⟨_, _, rfl, ⟨hterms, r, hr, hfiled⟩, rfl⟩
  · exact ⟨_, _, rfl, ⟨ht ▸ hterms, _, Directory.get?_insert_self .., hfiled⟩, rfl⟩

/-- Storing progress keeps the purchase on record and leaves the version. -/
theorem Holds.endSettlement (h : b.Holds record) (p : SettlementProgress)
    (failure : Option CollaboratorError) :
    (b.endSettlement record.purchaseId p failure).Holds record ∧
      (b.endSettlement record.purchaseId p failure).version = b.version := by
  obtain ⟨hterms, r, hr, hfiled⟩ := h
  refine ⟨⟨?_, _, get?_endSettlement_self hr p failure, hfiled⟩, ?_⟩
  · rwa [(sealed_of_endSettlement b _ p failure).terms]
  · simp only [Book.endSettlement, hr]

end Book

/-- No step under the lock removes a purchase from the record. -/
theorem LockStep.holds {o : Operation} {b b' : Book} {now : Instant} {h h' : Holding}
    {record : PurchaseRecord} (hs : LockStep o b now h b' h') (hb : b.Holds record) :
    b'.Holds record := by
  obtain ⟨r, hr, hfiled⟩ := hb.filed
  obtain ⟨r', hr', hfiled'⟩ := hs.get?_filed hr
  exact ⟨hs.advances.configured hb.configured, r', hr', hfiled'.trans hfiled⟩

theorem Step.holds {clock : Instant → Instant → Prop} {s s' : System} {e : Event} {g : Tracked}
    {record : PurchaseRecord} (hs : Step clock s e s') (hg : g.Tracks s)
    (hb : s.book.Holds record) : s'.book.Holds record := by
  obtain ⟨g', hstep, hg'⟩ := hs.tracked hg
  rw [← hg.1] at hb
  rw [← hg'.1]
  cases hstep with
  | lock h => exact h.holds hb
  | tick | begin | answer | finish => exact hb

/-! ## what is left of a purchase -/

/-- The receipt for a purchase. -/
def PurchaseRecord.receipt (r : PurchaseRecord) (status : SettlementStatus) : PurchaseReceipt :=
  ⟨r.purchaseId, r.plan, status⟩

/-- The result is a receipt for the purchase, however far its settlement came. -/
def PurchaseRecord.Confirms (r : PurchaseRecord) (result : Except SaleError PurchaseReceipt) :
    Prop := ∃ status, result = .ok (r.receipt status)

namespace Program

variable {α β : Type} {r : PurchaseRequest} {record : PurchaseRecord} {ends : α → Prop}

/-- The program only looks at the book and asks nobody for an effect. -/
def OnlyLooks : Program α → Prop
  | done _ => True
  | locked f k => ∀ b now, f b now = b ∧ OnlyLooks (k b now)
  | call c k => (∀ e, c ≠ .effect e) ∧ ∀ a, OnlyLooks (k a)

/-- As long as the purchase is on record it stays there, no version is used up,
and the program ends as told. -/
def Settling (record : PurchaseRecord) (ends : α → Prop) : Program α → Prop
  | done a => ends a
  | locked f k => ∀ b now, b.Holds record →
      ((f b now).Holds record ∧ (f b now).version = b.version) ∧ Settling record ends (k b now)
  | call _ k => ∀ a, Settling record ends (k a)

/-- The book stays as it is, nobody is asked for an effect and the end is an
error, unless a step commits the purchase; then the end is its receipt. -/
def Undecided (r : PurchaseRequest) : Program (Except SaleError PurchaseReceipt) → Prop
  | done result => ∃ e, result = .error e
  | locked f k => ∀ b now, f b now = b ∧ Undecided r (k b now) ∨
      ∃ checked record, b.commitPurchase r checked now = .ok (record, f b now) ∧
        (k b now).Settling record record.Confirms
  | call c k => (∀ e, c ≠ .effect e) ∧ ∀ a, Undecided r (k a)

/-- Looking before an undecided purchase leaves it undecided. -/
theorem OnlyLooks.undecided {p : Program β}
    {k : β → Program (Except SaleError PurchaseReceipt)} (hp : p.OnlyLooks)
    (hk : ∀ b, (k b).Undecided r) : (p >>= k).Undecided r := by
  induction p with
  | done b => exact hk b
  | locked f next ih =>
      intro b now
      obtain ⟨hf, hnext⟩ := hp b now
      exact .inl ⟨hf, ih b now hnext⟩
  | call c next ih => exact ⟨hp.1, fun a => ih a (hp.2 a)⟩

/-- A program that settles may be followed by another one that does. -/
theorem Settling.bind {p : Program β} {k : β → Program α}
    (hp : p.Settling record fun b => (k b).Settling record ends) :
    (p >>= k).Settling record ends := by
  induction p with
  | done b => exact hp
  | locked f next ih =>
      intro b now hb
      obtain ⟨hf, hnext⟩ := hp b now hb
      exact ⟨hf, ih b now hnext⟩
  | call c next ih => exact fun a => ih a (hp a)

theorem onlyLooks_look {f : Book → Instant → β} {k : β → Program α}
    (hk : ∀ x, (k x).OnlyLooks) : (look f >>= k).OnlyLooks :=
  fun b now => ⟨rfl, hk (f b now)⟩

/-- Everything is checked without leaving a trace. -/
theorem onlyLooks_check (r : PurchaseRequest) : (Sale.check r).OnlyLooks := by
  unfold Sale.check
  split
  · trivial
  refine onlyLooks_look fun precheck => ?_
  cases precheck with
  | error e => trivial
  | ok u =>
      refine ⟨fun _ => by simp, fun verdict => ?_⟩
      cases verdict with
      | error e => trivial
      | ok verdict =>
          change OnlyLooks (if _ then _ else _)
          split
          · trivial
          · refine ⟨fun _ => by simp, fun rate => ?_⟩
            cases rate <;> trivial

/-- The calls of a settlement leave every purchase on record. -/
theorem settling_runSteps {s : PurchaseRecord} {destination : String}
    (steps : List SettlementStep) (p : SettlementProgress) :
    (runSteps s destination steps p).Settling record fun _ => True :=
  runSteps_induct (P := Settling record fun _ => True) (fun _ => trivial) (fun _ _ h => h) s
    destination steps p

theorem Settling.mono {ends' : α → Prop} {p : Program α} (hp : p.Settling record ends)
    (h : ∀ a, ends a → ends' a) : p.Settling record ends' := by
  induction p with
  | done a => exact h a hp
  | locked f k ih => exact fun b now hb => ⟨(hp b now hb).1, ih b now (hp b now hb).2⟩
  | call c k ih => exact fun a => ih a (hp a)

/-- A step that is not refused as long as the purchase is on record. -/
theorem settling_attempt {step : Book → Instant → Except SaleError (β × Book)}
    {k : Except SaleError β → Program α}
    (hok : ∀ b now, b.Holds record → ∃ x b', step b now = .ok (x, b') ∧
      (b'.Holds record ∧ b'.version = b.version) ∧ (k (.ok x)).Settling record ends) :
    (attempt step >>= k).Settling record ends := by
  intro b now hb
  obtain ⟨x, b', hs, hb', hk⟩ := hok b now hb
  refine ⟨by simpa only [hs] using hb', ?_⟩
  simp only [hs]
  exact hk

/-- An attempt at the settlement of a purchase on record never fails; it ends
with a status. -/
theorem settling_settle :
    (settle record.purchaseId).Settling record fun result => ∃ status, result = .ok status := by
  refine settling_attempt fun b now hb => ?_
  obtain ⟨attempt, b', hbegin, hb'⟩ := hb.beginSettlement
  refine ⟨attempt, b', hbegin, hb', ?_⟩
  cases attempt with
  | idle status => exact ⟨status, rfl⟩
  | started s destination =>
      refine Settling.bind ((settling_runSteps _ _).mono fun x _ b now hb => ?_)
      exact ⟨hb.endSettlement x.1 x.2, _, rfl⟩

/-- A step that commits the purchase or is refused. -/
theorem undecided_attempt {step : Book → Instant → Except SaleError (β × Book)}
    {k : Except SaleError β → Program (Except SaleError PurchaseReceipt)}
    (hok : ∀ b now x b', step b now = .ok (x, b') → ∃ checked record,
      b.commitPurchase r checked now = .ok (record, b') ∧
        (k (.ok x)).Settling record record.Confirms)
    (herr : ∀ e, (k (.error e)).Undecided r) : (attempt step >>= k).Undecided r := by
  intro b now
  cases hs : step b now with
  | ok x =>
      obtain ⟨x, b'⟩ := x
      obtain ⟨checked, record, hcommit, hk⟩ := hok b now x b' hs
      refine .inr ⟨checked, record, by simpa only [hs] using hcommit, ?_⟩
      simp only [hs]
      exact hk
  | error e =>
      refine .inl ⟨by simp only [hs], ?_⟩
      simp only [hs]
      exact herr e

/-- **A purchase is undecided until it is committed.** -/
theorem undecided_purchase (r : PurchaseRequest) : (Sale.purchase r).Undecided r := by
  refine (onlyLooks_check r).undecided fun checked => ?_
  cases checked with
  | error e => exact ⟨e, rfl⟩
  | ok checked =>
      refine undecided_attempt (fun b now record b' hcommit => ?_) fun e => ⟨e, rfl⟩
      refine ⟨checked, record, hcommit, Settling.bind (settling_settle.mono ?_)⟩
      rintro _ ⟨status, rfl⟩
      exact ⟨status, rfl⟩

/-- What is left after the commit ends with a receipt when it runs alone. -/
theorem Settling.alone {p : Program α} (hp : p.Settling record ends) {b : Book}
    (hb : b.Holds record) (reply : (c : Call) → c.Answer) (now : Instant) :
    ends (p.alone reply now b).result ∧ (p.alone reply now b).book.Holds record ∧
      (p.alone reply now b).book.version = b.version := by
  induction p generalizing b with
  | done a => exact ⟨hp, hb, rfl⟩
  | locked f k ih =>
      obtain ⟨⟨hf, hversion⟩, hrest⟩ := hp b now hb
      obtain ⟨hends, hholds, hsame⟩ := ih b now hrest hf
      exact ⟨hends, hholds, hsame.trans hversion⟩
  | call c k ih => exact ih (reply c) (hp (reply c)) hb

end Program

/-! ## runs of a kind -/

/-- The effect outside the sale that is requested here, accepted or not. -/
def Event.requested? : Event → Option Effect
  | answer _ _ (.effect e) _ => some e
  | _ => none

/-- A run all of whose occurrences are of a kind. -/
inductive Run.Each (clock : Instant → Instant → Prop) (P : System → Event → System → Prop)
    (s : System) : List Event → System → Prop
  | refl : Each clock P s [] s
  | step {es : List Event} {s' s'' : System} {e : Event} (h : Each clock P s es s')
    (hs : Step clock s' e s'') (hp : P s' e s'') : Each clock P s (es ++ [e]) s''

/-- The caller leaves the book as it is and asks nobody for an effect. -/
def LeavesAlone (i : Nat) (s : System) (e : Event) (s' : System) : Prop :=
  e.caller? = some i → s'.book = s.book ∧ e.requested? = none

/-- The caller uses up no version. -/
def KeepsVersion (i : Nat) (s : System) (e : Event) (s' : System) : Prop :=
  e.caller? = some i → s'.book.version = s.book.version

variable {clock : Instant → Instant → Prop} {s s' : System} {es : List Event} {e : Event} {i : Nat}

/-- A run of a kind is a run. -/
theorem Run.Each.run {P : System → Event → System → Prop} (h : Run.Each clock P s es s') :
    Run clock s es s' := by
  induction h with
  | refl => exact .refl
  | step _ hs _ ih => exact ih.step hs

/-- What is the same after every occurrence is the same after the run. -/
theorem Run.Each.same {β : Type} {P : System → Event → System → Prop} {f : System → β}
    (h : Run.Each clock P s es s')
    (hf : ∀ s e s', e ∈ es → Step clock s e s' → P s e s' → f s' = f s) : f s' = f s := by
  induction h with
  | refl => rfl
  | step h hs hp ih =>
      rw [hf _ _ _ (by simp) hs hp]
      exact ih fun s e s' he => hf s e s' (List.mem_append_left _ he)

/-- The book changes under the lock only. -/
theorem Step.book_of_ne_lock (hs : Step clock s e s') (he : ∀ j, e ≠ .lock j) :
    s'.book = s.book := by
  cases hs with
  | lock h => exact absurd rfl (he _)
  | tick | begin | answer | finish => rfl

/-! ## the course of a purchase -/

/-- Nothing has come of the purchase of a caller: no step of its own has
changed anything, inside the sale or outside. -/
structure Untouched (clock : Instant → Instant → Prop) (i : Nat) (s : System) (es : List Event)
    (s' : System) : Prop where
  own : Run.Each clock (LeavesAlone i) s es s'
  /-- So if nobody else has taken the lock, the book is the same. -/
  alone : (∀ j, .lock j ∈ es → j = i) → s'.book = s.book

/-- The purchase of a caller is committed: by one step of its own, which uses
up one version.  Those before have changed nothing, those after use up none. -/
structure Committed (clock : Instant → Instant → Prop) (r : PurchaseRequest)
    (record : PurchaseRecord) (i : Nat) (s : System) (es : List Event) (s' : System) : Prop where
  own : ∃ es₁ es₂ s₁ s₂ checked, es = es₁ ++ .lock i :: es₂ ∧
    Run.Each clock (LeavesAlone i) s es₁ s₁ ∧ Step clock s₁ (.lock i) s₂ ∧
    s₁.book.commitPurchase r checked s₁.now = .ok (record, s₂.book) ∧
    s₂.book.version = s₁.book.version + 1 ∧ Run.Each clock (KeepsVersion i) s₂ es₂ s'
  /-- So if nobody else has taken the lock, the version is the next one. -/
  alone : (∀ j, .lock j ∈ es → j = i) → s'.book.version = s.book.version + 1
  holds : s'.book.Holds record

/-- If every own step leaves the book alone, the purchase has not touched it. -/
theorem Run.Each.untouched (h : Run.Each clock (LeavesAlone i) s es s') :
    Untouched clock i s es s' where
  own := h
  alone hown := h.same fun s₁ e s₂ he hs hp => by
    by_cases hlock : ∃ j, e = .lock j
    · obtain ⟨j, rfl⟩ := hlock
      exact (hp (congrArg some (hown j he))).1
    · exact hs.book_of_ne_lock fun j hj => hlock ⟨j, hj⟩

/-- How far the purchase of a caller has come. -/
inductive PurchaseCourse (clock : Instant → Instant → Prop) (r : PurchaseRequest) (i : Nat)
    (s : System) (es : List Event) (s' : System) : Prop
  | undecided {p : Program (Except SaleError PurchaseReceipt)}
      (session : s'.sessions i = some ⟨.purchase r, p⟩) (rest : p.Undecided r)
      (own : Run.Each clock (LeavesAlone i) s es s')
  | committed {p : Program (Except SaleError PurchaseReceipt)} {record : PurchaseRecord}
      (session : s'.sessions i = some ⟨.purchase r, p⟩)
      (rest : p.Settling record record.Confirms) (own : Committed clock r record i s es s')

/-- A purchase that is committed stays so. -/
theorem Committed.step {r : PurchaseRequest} {record : PurchaseRecord} {s'' : System}
    (h : Committed clock r record i s es s') (hs : Step clock s' e s'')
    (hholds : s''.book.Holds record)
    (hp : e.caller? = some i → s''.book.version = s'.book.version) :
    Committed clock r record i s (es ++ [e]) s'' := by
  obtain ⟨es₁, es₂, s₁, s₂, checked, rfl, hbefore, hcommit, hchecked, hversion, hafter⟩ := h.own
  refine ⟨⟨es₁, es₂ ++ [e], s₁, s₂, checked, by simp, hbefore, hcommit, hchecked, hversion,
    hafter.step hs hp⟩, fun hown => ?_, hholds⟩
  have hsame : s''.book.version = s'.book.version := by
    by_cases hlock : ∃ j, e = .lock j
    · obtain ⟨j, rfl⟩ := hlock
      exact hp (congrArg some (hown j (by simp)))
    · rw [hs.book_of_ne_lock fun j hj => hlock ⟨j, hj⟩]
  rw [hsame, h.alone fun j hj => hown j (List.mem_append_left _ hj)]

/-- The step that commits a purchase. -/
theorem committed_of_commitPurchase {r : PurchaseRequest} {checked : Book.Checked}
    {record : PurchaseRecord} {s'' : System} (h : Run.Each clock (LeavesAlone i) s es s')
    (hs : Step clock s' (.lock i) s'')
    (hc : s'.book.commitPurchase r checked s'.now = .ok (record, s''.book)) :
    Committed clock r record i s (es ++ [.lock i]) s'' := by
  obtain ⟨hholds, hversion⟩ := Book.holds_of_commitPurchase hc
  refine ⟨⟨es, [], s', s'', checked, rfl, h, hs, hc, hversion, .refl⟩, fun hown => ?_, hholds⟩
  rw [hversion, h.untouched.alone fun j hj => hown j (List.mem_append_left _ hj)]

/-- One occurrence takes the purchase on. -/
theorem PurchaseCourse.step {r : PurchaseRequest} {s'' : System} {g : Tracked}
    (h : PurchaseCourse clock r i s es s') (hg : g.Tracks s') (hs : Step clock s' e s'')
    (he : e.isFinishOf i = false) : PurchaseCourse clock r i s (es ++ [e]) s'' := by
  cases h with
  | undecided session rest own =>
      obtain ⟨hother, hsession⟩ | ⟨f, k, rfl, rfl, hbook, hsession⟩ |
        ⟨c, k, a, rfl, rfl, hbook, hsession⟩ := hs.session_cases session he
      · exact .undecided hsession rest (own.step hs fun hown => absurd hown hother)
      · obtain ⟨hkeep, hrest⟩ | ⟨checked, record, hcommit, hrest⟩ := rest s'.book s'.now
        · exact .undecided hsession hrest (own.step hs fun _ => ⟨hbook.trans hkeep, rfl⟩)
        · rw [← hbook] at hcommit
          exact .committed hsession hrest (committed_of_commitPurchase own hs hcommit)
      · refine .undecided hsession (rest.2 a) (own.step hs fun _ => ⟨hbook, ?_⟩)
        cases c with
        | effect x => exact absurd rfl (rest.1 x)
        | compliance | rate => rfl
  | committed session rest own =>
      have hholds := hs.holds hg own.holds
      obtain ⟨hother, hsession⟩ | ⟨f, k, rfl, rfl, hbook, hsession⟩ |
        ⟨c, k, a, rfl, rfl, hbook, hsession⟩ := hs.session_cases session he
      · exact .committed hsession rest (own.step hs hholds fun hown => absurd hown hother)
      · obtain ⟨⟨-, hversion⟩, hrest⟩ := rest s'.book s'.now own.holds
        exact .committed hsession hrest (own.step hs hholds fun _ => by rw [hbook, hversion])
      · exact .committed hsession (rest a) (own.step hs hholds fun _ => by rw [hbook])

/-- Every purchase under way has its course. -/
theorem Run.purchaseCourse {r : PurchaseRequest} {t : Instant} {es' : List Event}
    (h : Run clock (.start t) es s) (h' : Run clock s (.begin i (.purchase r) :: es') s')
    (he : ∀ e ∈ es', e.isFinishOf i = false) :
    PurchaseCourse clock r i s (.begin i (.purchase r) :: es') s' := by
  induction es' using List.reverseRecOn generalizing s' with
  | nil =>
      have h' : Run clock s ([] ++ [.begin i (.purchase r)]) s' := h'
      obtain ⟨s₁, hrefl, hbegin⟩ := h'.last
      obtain rfl := hrefl.eq_of_nil
      have hsession : s'.sessions i = some ⟨.purchase r, Sale.purchase r⟩ := by
        cases hbegin with
        | begin o hidle => simp [System.withSession, Operation.program]
      have hquiet : LeavesAlone i s₁ (.begin i (.purchase r)) s' :=
        fun _ => ⟨hbegin.book_of_ne_lock (by simp), rfl⟩
      exact .undecided hsession (Program.undecided_purchase r) (.step .refl hbegin hquiet)
  | append_singleton es' e ih =>
      rw [← List.cons_append] at h'
      obtain ⟨s₁, h₁, hs⟩ := h'.last
      obtain ⟨g, -, hg⟩ := (h.append h₁).tracked (Tracked.tracks_start t)
      exact (ih h₁ fun e hmem => he e (List.mem_append_left _ hmem)).step hg hs (he e (by simp))

/-- **A purchase is made as a whole or not at all.**  At every moment of a
purchase that a caller has begun, among any other callers and whatever services
answer: either nothing has come of it, inside the sale or outside, and it has
not ended with a receipt; or it is committed, it cannot end with anything but a
receipt for what is on record, and left to itself it does. -/
theorem purchase_all_or_nothing {r : PurchaseRequest} {t : Instant} {es' : List Event}
    (h : Run clock (.start t) es s) (h' : Run clock s (.begin i (.purchase r) :: es') s')
    (he : ∀ e ∈ es', e.isFinishOf i = false) :
    ∃ p : Program (Except SaleError PurchaseReceipt),
      s'.sessions i = some ⟨.purchase r, p⟩ ∧
      (Untouched clock i s (.begin i (.purchase r) :: es') s' ∧
          (∀ receipt, p ≠ .done (.ok receipt)) ∨
        ∃ record, Committed clock r record i s (.begin i (.purchase r) :: es') s' ∧
          (∀ result, p = .done result → record.Confirms result) ∧
          ∀ reply : (c : Call) → c.Answer,
            record.Confirms (p.alone reply s'.now s'.book).result ∧
            (p.alone reply s'.now s'.book).book.Holds record ∧
            (p.alone reply s'.now s'.book).book.version = s'.book.version) := by
  cases h.purchaseCourse h' he with
  | @undecided p session rest own =>
      refine ⟨p, session, .inl ⟨own.untouched, ?_⟩⟩
      rintro receipt rfl
      obtain ⟨e, he⟩ := rest
      contradiction
  | @committed p record session rest own =>
      refine ⟨p, session, .inr ⟨record, own, ?_, fun reply => rest.alone own.holds reply s'.now⟩⟩
      rintro result rfl
      exact rest

/-- Without the token ledger a purchase is committed too, and its caller gets a
receipt that says what is still to be done. -/
theorem purchase_all_or_nothing_without_issue : ∃ s es s' record reason,
    s'.sessions 0 = some ⟨.purchase Sample.request,
      .done (.ok (record.receipt (.pending reason)))⟩ ∧
    Committed Forward Sample.request record 0 s es s' := by
  obtain ⟨es, h⟩ := Sample.run_configured Sample.refuseIssue
  obtain ⟨receipt, hresult, reason, hreason⟩ : ∃ receipt : PurchaseReceipt,
      ((Operation.purchase Sample.request).program.alone Sample.refuseIssue Sample.open
        (Sample.configured Sample.refuseIssue)).result = .ok receipt ∧
      ∃ reason, receipt.settlement = .pending reason := ⟨_, rfl, _, rfl⟩
  obtain ⟨es', s', he, h', hdone⟩ : ∃ es' s', (∀ e ∈ es', ∀ j, e.isFinishOf j = false) ∧
      Run Forward (.idle (Sample.configured Sample.refuseIssue) Sample.open)
        (.begin 0 (.purchase Sample.request) :: es') s' ∧
      s'.sessions 0 = some ⟨.purchase Sample.request, .done (.ok receipt)⟩ := by
    obtain ⟨es', he, h'⟩ := Run.alone_begun Forward Sample.refuseIssue 0 (.purchase Sample.request)
      (s := .idle (Sample.configured Sample.refuseIssue) Sample.open) rfl
    refine ⟨es', _, he, h', ?_⟩
    simp [System.withSession, System.idle, hresult]
  obtain ⟨p, hp, hcourse⟩ := purchase_all_or_nothing h h' fun e hmem => he e hmem 0
  rw [hdone, Option.some.injEq, Session.mk.injEq, heq_eq_eq] at hp
  obtain ⟨-, rfl⟩ := hp
  obtain ⟨-, hnone⟩ | ⟨record, hcommitted, hconfirms, -⟩ := hcourse
  · exact absurd rfl (hnone receipt)
  · obtain ⟨status, hstatus⟩ := hconfirms _ rfl
    cases hstatus
    exact ⟨_, _, _, record, reason, hreason ▸ hdone, hcommitted⟩

end TokenSale
