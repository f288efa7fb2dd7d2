import TokenSale.Proofs.AllOrNothing
import TokenSale.Proofs.Totals

/-!
# TokenSale.Proofs.Warrant

What warrants a purchase.  Its caller looks at the book and asks two services
before the lock is taken, and what it finds out is not looked up again when
the plan is committed.  Every purchase on record goes back to one step that
committed it, and to what its caller had found out by then in the same call.

* `Program.Grounded` — a program commits only what its findings warrant;
* `Run.session_begun` — an operation under way goes back to its beginning;
* `Run.grounded` — whatever its caller has found out happened in the run;
* `Run.committing`, `Run.origin` — a purchase that is filed by a step, and one
  that is on record.
-/

namespace TokenSale

/-! ## what is found out -/

/-- What a caller finds out in its call: how the book stands, or an answer. -/
inductive Finding where
  | looked (book : Book) (now : Instant)
  | told (c : Call) (a : c.Answer)

/-- The findings allow a request to be committed as checked. -/
structure PurchaseRequest.Warranted (r : PurchaseRequest) (found : List Finding)
    (checked : Book.Checked) : Prop where
  amount : 0 < r.amount.val
  looked : ∃ b now, .looked b now ∈ found ∧ Sale.precheck b.config? r = .ok ()
  allowed : .told (.compliance r.recipient) (.ok ⟨true, checked.investorClass⟩) ∈ found
  quoted : .told (.rate r.currency) (.ok checked.rate) ∈ found

namespace Program

variable {α β : Type} {r : PurchaseRequest} {found : List Finding}
  {ends : List Finding → α → Prop}

/-- Under the lock the purchases on record stay as they are, or the request is
committed and the findings up to then warrant it; the program ends as told. -/
def Grounded (r : PurchaseRequest) (ends : List Finding → α → Prop) :
    List Finding → Program α → Prop
  | found, done a => ends found a
  | found, locked f k => ∀ b now,
      ((f b now).filed = b.filed ∨ ∃ checked record,
        b.commitPurchase r checked now = .ok (record, f b now) ∧ r.Warranted found checked) ∧
      Grounded r ends (.looked b now :: found) (k b now)
  | found, call c k => ∀ a, Grounded r ends (.told c a :: found) (k a)

/-- A program that is grounded may be followed by another one that is. -/
theorem Grounded.bind {p : Program β} {k : β → Program α}
    (hp : p.Grounded r (fun found b => (k b).Grounded r ends found) found) :
    (p >>= k).Grounded r ends found := by
  induction p generalizing found with
  | done b => exact hp
  | locked f next ih => exact fun b now => ⟨(hp b now).1, ih b now (hp b now).2⟩
  | call c next ih => exact fun a => ih a (hp a)

theorem Grounded.mono {ends' : List Finding → α → Prop} {p : Program α}
    (hp : p.Grounded r ends found) (h : ∀ found a, ends found a → ends' found a) :
    p.Grounded r ends' found := by
  induction p generalizing found with
  | done a => exact h found a hp
  | locked f k ih => exact fun b now => ⟨(hp b now).1, ih b now (hp b now).2⟩
  | call c k ih => exact fun a => ih a (hp a)

/-- What was looked at is among the findings from there on. -/
theorem grounded_look {f : Book → Instant → β} {k : β → Program α}
    (hk : ∀ b now, (k (f b now)).Grounded r ends (.looked b now :: found)) :
    (look f >>= k).Grounded r ends found :=
  fun b now => ⟨.inl rfl, hk b now⟩

/-- A step is grounded if it files nothing, or what the findings warrant. -/
theorem grounded_attempt {step : Book → Instant → Except SaleError (β × Book)}
    {k : Except SaleError β → Program α}
    (hstep : ∀ b now x b', step b now = .ok (x, b') → b'.filed = b.filed ∨ ∃ checked record,
      b.commitPurchase r checked now = .ok (record, b') ∧ r.Warranted found checked)
    (hk : ∀ result found, (k result).Grounded r ends found) :
    (attempt step >>= k).Grounded r ends found := by
  intro b now
  refine ⟨?_, hk _ _⟩
  cases hs : step b now with
  | ok x => simpa only [hs] using hstep b now x.1 x.2 hs
  | error e => exact .inl (by simp only [hs])

/-- The steps of a settlement file nothing. -/
theorem grounded_runSteps {s : PurchaseRecord} {destination : String}
    (steps : List SettlementStep) (p : SettlementProgress) :
    (runSteps s destination steps p).Grounded r (fun _ _ => True) found :=
  runSteps_induct (P := fun q => ∀ found, q.Grounded r (fun _ _ => True) found)
    (fun _ _ => trivial) (fun _ _ h _ a => h a _) s destination steps p found

/-- A settlement files nothing. -/
theorem grounded_settle (id : Uuid) : (settle id).Grounded r (fun _ _ => True) found := by
  refine grounded_attempt (fun b now attempt b' hb => .inl ?_) fun result found => ?_
  · cases attempt with
    | idle status => rw [Book.eq_of_beginSettlement_idle hb]
    | started record destination => exact Book.filed_of_beginSettlement hb
  · match result with
    | .error e => trivial
    | .ok (.idle status) => trivial
    | .ok (.started record destination) =>
        refine ((grounded_runSteps _ _).mono fun found x _ b now => ?_).bind
        exact ⟨.inl (Book.filed_endSettlement b id x.1 x.2), trivial⟩

/-- A check that succeeds has found what a purchase needs. -/
theorem grounded_check (r : PurchaseRequest) : (Sale.check r).Grounded r
    (fun found result => ∀ checked, result = .ok checked → r.Warranted found checked) [] := by
  unfold Sale.check
  split
  · exact fun checked h => nomatch h
  next hamount =>
  refine grounded_look fun b now => ?_
  cases hprecheck : Sale.precheck b.config? r with
  | error e => exact fun checked h => nomatch h
  | ok u =>
      intro verdict
      cases verdict with
      | error e => exact fun checked h => nomatch h
      | ok verdict =>
          change Grounded r _ _ (if _ then _ else _)
          split
          · exact fun checked h => nomatch h
          next hallowed =>
          intro rate
          cases rate with
          | error e => exact fun checked h => nomatch h
          | ok rate =>
              intro checked hchecked
              cases hchecked
              obtain ⟨allowed, investorClass⟩ := verdict
              have hallowed : allowed = true := by simpa using hallowed
              subst hallowed
              exact {
                amount := Nat.pos_of_ne_zero (by simpa using hamount)
                looked := ⟨b, now, by simp, hprecheck⟩
                allowed := by simp
                quoted := by simp }

/-- **A purchase commits only what its caller has found to be in order.** -/
theorem grounded_purchase (r : PurchaseRequest) :
    (Sale.purchase r).Grounded r (fun _ _ => True) [] := by
  refine ((grounded_check r).mono fun found result hresult => ?_).bind
  cases result with
  | error e => trivial
  | ok checked =>
      refine grounded_attempt (fun b now record b' hcommit => ?_) fun result found => ?_
      · exact .inr ⟨checked, record, hcommit, hresult checked rfl⟩
      · cases result with
        | error e => trivial
        | ok record =>
            refine ((grounded_settle _).mono fun found status _ => ?_).bind
            cases status <;> trivial

end Program

/-! ## what was found out in a run -/

section

variable {clock : Instant → Instant → Prop} {t : Instant} {s s' s'' : System} {e : Event}
  {es : List Event} {i : Nat}

/-- An operation under way was so before, or this is its beginning. -/
theorem Step.session_before (hs : Step clock s e s') {o : Operation} {p : Program o.Result}
    (hi : s'.sessions i = some ⟨o, p⟩) :
    (e.isFinishOf i = false ∧ ∃ p', s.sessions i = some ⟨o, p'⟩) ∨
      (e = .begin i o ∧ s.sessions i = none ∧ s' = s.withSession i (some ⟨o, o.program⟩)) := by
  cases hbefore : s.sessions i with
  | none =>
      cases hs with
      | tick => simp [hbefore] at hi
      | @begin j o' hj =>
          by_cases hne : j = i
          · subst hne
            simp only [System.withSession, Function.update_self, Option.some.injEq,
              Session.mk.injEq] at hi
            obtain ⟨rfl, -⟩ := hi
            exact .inr ⟨rfl, rfl, rfl⟩
          · simp [System.withSession, Ne.symm hne, hbefore] at hi
      | @lock j o' f k hj | @answer j o' c k a hj | @finish j o' result hj =>
          have hne : j ≠ i := by
            rintro rfl
            simp [hbefore] at hj
          simp [System.withSession, Ne.symm hne, hbefore] at hi
  | some x =>
      have he : e.isFinishOf i = false := by
        by_contra hfinish
        cases hs with
        | @finish j o' result hj =>
            have hij : i = j := by simpa [Event.isFinishOf] using hfinish
            subst hij
            simp [System.withSession] at hi
        | _ => simp [Event.isFinishOf] at hfinish
      have hsame : x.operation = o := by
        obtain ⟨-, hp⟩ | ⟨f, k, -, -, -, hp⟩ | ⟨c, k, a, -, -, -, hp⟩ :=
          hs.session_cases hbefore he
        all_goals
          rw [hi, Option.some.injEq, Session.mk.injEq] at hp
          exact hp.1.symm
      subst hsame
      exact .inl ⟨he, x.rest, rfl⟩

/-- An operation under way goes back to its beginning. -/
theorem Run.session_begun (h : Run clock (.start t) es s) {o : Operation} {p : Program o.Result}
    (hi : s.sessions i = some ⟨o, p⟩) : ∃ before during s₀,
      es = before ++ .begin i o :: during ∧ (∀ e ∈ during, e.isFinishOf i = false) ∧
      Run clock (.start t) (before ++ [.begin i o]) s₀ ∧ s₀.sessions i = some ⟨o, o.program⟩ ∧
      Run clock s₀ during s := by
  induction h generalizing p with
  | refl => simp [System.start] at hi
  | @step es s' s e h hs ih =>
      obtain ⟨he, p', hp'⟩ | ⟨rfl, -, rfl⟩ := hs.session_before hi
      · obtain ⟨before, during, s₀, rfl, hduring, hbefore, hbegun, hrun⟩ := ih hp'
        refine ⟨before, during ++ [e], s₀, by simp, ?_, hbefore, hbegun, hrun.step hs⟩
        simpa [or_imp, forall_and, he] using hduring
      · exact ⟨es, [], _, by simp, by simp, h.step hs, by simp [System.withSession], .refl⟩

/-- Something was found out by a caller in a run. -/
def Finding.In (clock : Instant → Instant → Prop) (i : Nat) (o : Operation) (s : System)
    (es : List Event) (s' : System) : Finding → Prop
  | looked b now => ∃ es₁ es₂ s₁, es = es₁ ++ .lock i :: es₂ ∧ Run clock s es₁ s₁ ∧
      Run clock s₁ (.lock i :: es₂) s' ∧ s₁.book = b ∧ s₁.now = now
  | told c a => .answer i o c a ∈ es

/-- What was found stays found. -/
theorem Finding.In.step {x : Finding} {o : Operation} (h : x.In clock i o s es s')
    (hs : Step clock s' e s'') : x.In clock i o s (es ++ [e]) s'' := by
  cases x with
  | looked b now =>
      obtain ⟨es₁, es₂, s₁, rfl, h₁, h₂, hb, hnow⟩ := h
      exact ⟨es₁, es₂ ++ [e], s₁, by simp, h₁, by simpa using h₂.step hs, hb, hnow⟩
  | told c a => exact List.mem_append_left _ h

/-- A purchase under way commits only what its caller has found to be in order
since it began. -/
theorem Run.grounded {r : PurchaseRequest} (h : Run clock s es s')
    (hi : s.sessions i = some ⟨.purchase r, Sale.purchase r⟩)
    (hes : ∀ e ∈ es, e.isFinishOf i = false) :
    ∃ p found, s'.sessions i = some ⟨.purchase r, p⟩ ∧ p.Grounded r (fun _ _ => True) found ∧
      ∀ x ∈ found, x.In clock i (.purchase r) s es s' := by
  induction h with
  | refl => exact ⟨_, [], hi, Program.grounded_purchase r, by simp⟩
  | @step es s' s'' e h hs ih =>
      obtain ⟨p, found, hp, hgrounded, hfound⟩ := ih fun e he => hes e (List.mem_append_left _ he)
      have hkept : ∀ x ∈ found, x.In clock i (.purchase r) s (es ++ [e]) s'' := fun x hx =>
        (hfound x hx).step hs
      obtain ⟨-, hp'⟩ | ⟨f, k, rfl, rfl, -, hp'⟩ | ⟨c, k, a, rfl, rfl, -, hp'⟩ :=
        hs.session_cases hp (hes e (by simp))
      · exact ⟨p, found, hp', hgrounded, hkept⟩
      · refine ⟨_, _, hp', (hgrounded s'.book s'.now).2, List.forall_mem_cons.2 ⟨?_, hkept⟩⟩
        exact ⟨es, [], s', by simp, h, .single hs, rfl, rfl⟩
      · refine ⟨_, _, hp', hgrounded a, List.forall_mem_cons.2 ⟨?_, hkept⟩⟩
        exact List.mem_append_right _ (List.mem_singleton_self _)

end

/-! ## where purchases come from -/

section

variable {clock : Instant → Instant → Prop} {t : Instant} {s s' s'' : System} {e : Event}
  {es es' : List Event} {id : Uuid} {record : PurchaseRecord}

/-- What holds at first and not in the end ceases to hold at some step. -/
theorem Run.turns {P : System → Prop} (h : Run clock s es s') (hs : P s) (hs' : ¬ P s') :
    ∃ es₁ e es₂ s₁ s₂, es = es₁ ++ e :: es₂ ∧ Run clock s es₁ s₁ ∧ Step clock s₁ e s₂ ∧
      Run clock s₂ es₂ s' ∧ P s₁ ∧ ¬ P s₂ := by
  induction h with
  | refl => exact absurd hs hs'
  | @step es s' s'' e h hstep ih =>
      by_cases hP : P s'
      · exact ⟨es, e, [], s', s'', by simp, h, hstep, .refl, hP, hs'⟩
      · obtain ⟨es₁, e₁, es₂, s₁, s₂, rfl, h₁, hstep₁, h₂, hP₁, hP₂⟩ := ih hP
        exact ⟨es₁, e₁, es₂ ++ [e], s₁, s₂, by simp, h₁, hstep₁, h₂.step hstep, hP₁, hP₂⟩

/-- What an occurrence does to the book. -/
theorem Step.book_cases (hs : Step clock s e s') (h : Run clock (.start t) es s) :
    s.book.Sealed s'.book ∨ ∃ i o p, e = .lock i ∧ s.sessions i = some ⟨o, p⟩ ∧
      ((∃ c version, o.change? = some (.ok c) ∧
          s.book.change c s.now = .ok (version, s'.book)) ∨
        ∃ r checked record, o = .purchase r ∧
          s.book.commitPurchase r checked s.now = .ok (record, s'.book)) := by
  obtain ⟨g, -, hg⟩ := h.tracked (Tracked.tracks_start t)
  cases hs with
  | tick | begin | answer | finish => exact .inl (.refl _)
  | @lock i o f k hi =>
      obtain ⟨h', hstep, -⟩ := hg.session hi s.book s.now
      exact hstep.book_cases.imp_right fun hcases => ⟨i, o, _, rfl, hi, hcases⟩

/-- Books that filed the same have the same records, up to their settlement. -/
theorem Book.get?_of_filed {b b' : Book} (hfiled : b'.filed = b.filed)
    (h : b'.purchases.get? id = some record) :
    ∃ x, b.purchases.get? id = some x ∧ x.filed = record.filed := by
  have hmem : (id, record.filed) ∈ b.filed :=
    hfiled ▸ List.mem_map_of_mem (f := fun p : Uuid × PurchaseRecord => (p.1, p.2.filed))
      (Directory.get?_eq_some_iff.1 h)
  obtain ⟨⟨k, x⟩, hx, heq⟩ := List.mem_map.1 hmem
  obtain ⟨rfl, hsame⟩ := Prod.mk.inj heq
  exact ⟨x, Directory.get?_eq_some_iff.2 hx, hsame⟩

/-- Purchases stay on record as they were filed. -/
theorem Run.get?_filed (h : Run clock (.start t) es s) (h' : Run clock s es' s')
    (hr : s.book.purchases.get? id = some record) :
    ∃ record', s'.book.purchases.get? id = some record' ∧ record'.filed = record.filed := by
  induction h' with
  | refl => exact ⟨record, hr, rfl⟩
  | step h' hs ih =>
      obtain ⟨x, hx, hfiled⟩ := ih
      obtain ⟨g, -, hg⟩ := (h.append h').tracked (Tracked.tracks_start t)
      obtain ⟨g', hstep, hg'⟩ := hs.tracked hg
      rw [← hg.1] at hx
      rw [← hg'.1]
      cases hstep with
      | lock hlock =>
          obtain ⟨y, hy, hsame⟩ := hlock.get?_filed hx
          exact ⟨y, hy, hsame.trans hfiled⟩
      | tick | begin | answer | finish => exact ⟨x, hx, hfiled⟩

/-- At a moment of a run a step of caller `i` commits a purchase as `record`:
what its plan rests on was found out in the same call. -/
structure Committing (clock : Instant → Instant → Prop) (t : Instant) (es : List Event)
    (s : System) (i : Nat) (r : PurchaseRequest) (record : PurchaseRecord) (b' : Book) : Prop where
  commit : s.book.commitPurchase r ⟨record.investorClass, record.rate⟩ s.now = .ok (record, b')
  call : ∃ before during s₀ found, es = before ++ .begin i (.purchase r) :: during ∧
    (∀ e ∈ during, e.isFinishOf i = false) ∧
    Run clock (.start t) (before ++ [.begin i (.purchase r)]) s₀ ∧ Run clock s₀ during s ∧
    r.Warranted found ⟨record.investorClass, record.rate⟩ ∧
    ∀ x ∈ found, x.In clock i (.purchase r) s₀ during s

/-- **A purchase that a step files is committed by its caller**, who has found
it to be in order. -/
theorem Run.committing (h : Run clock (.start t) es s) (hs : Step clock s e s')
    (hnone : s.book.purchases.get? id = none) (hsome : s'.book.purchases.get? id = some record) :
    record.purchaseId = id ∧ ∃ i r, e = .lock i ∧ Committing clock t es s i r record s'.book := by
  have hfiled : s'.book.filed ≠ s.book.filed := fun hsame => by
    obtain ⟨x, hx, -⟩ := Book.get?_of_filed hsame hsome
    simp [hnone] at hx
  obtain hsealed | ⟨i, o, p, rfl, hi, ⟨c, version, -, hc⟩ | ⟨r, -, -, rfl, -⟩⟩ := hs.book_cases h
  · exact absurd hsealed.filed hfiled
  · obtain ⟨-, -, terms, limit, overrides, hb, -⟩ := Book.change_ok hc
    exact absurd (by rw [hb]; rfl) hfiled
  · obtain ⟨before, during, s₀, rfl, hduring, hbefore, hbegun, hrun⟩ := h.session_begun hi
    obtain ⟨p', found, hp', hgrounded, hfound⟩ := hrun.grounded hbegun hduring
    cases hs with
    | @lock _ o f k hlock =>
        rw [hi, Option.some.injEq] at hp' hlock
        cases hp'
        cases hlock
        obtain hsame | ⟨checked, y, hcommit, hwarranted⟩ := (hgrounded s.book s.now).1
        · exact absurd hsame hfiled
        · obtain ⟨hfree, -, hpurchases, -⟩ := Book.purchases_of_commitPurchase hcommit
          simp only at hsome
          rw [hpurchases, Directory.get?_insert] at hsome
          split at hsome
          next hid =>
            cases hsome
            have hchecked : checked = ⟨record.investorClass, record.rate⟩ := by
              rw [Book.newRecord_of_commitPurchase hcommit]
              rfl
            subst hchecked
            exact ⟨hid.symm, i, r, rfl, hcommit, before, during, s₀, found, rfl, hduring, hbefore,
              hrun, hwarranted, hfound⟩
          · simp [hnone] at hsome

/-- **Every purchase on record was committed in the run.** -/
theorem Run.origin (h : Run clock (.start t) es s)
    (hr : s.book.purchases.get? id = some record) :
    record.purchaseId = id ∧ ∃ es₁ i es₂ s₁ s₂ r, es = es₁ ++ .lock i :: es₂ ∧
      Run clock (.start t) es₁ s₁ ∧ Step clock s₁ (.lock i) s₂ ∧ Run clock s₂ es₂ s ∧
      Committing clock t es₁ s₁ i r record.filed s₂.book := by
  obtain ⟨es₁, e, es₂, s₁, s₂, rfl, h₁, hs, h₂, hnone, hsome⟩ :=
    h.turns (P := fun s => s.book.purchases.get? id = none) rfl (by simp [hr])
  obtain ⟨x, hx⟩ := Option.ne_none_iff_exists'.1 hsome
  obtain ⟨hid, i, r, rfl, hcommitting⟩ := h₁.committing hs hnone hx
  obtain ⟨y, hy, hfiled⟩ := (h₁.step hs).get?_filed h₂ hx
  rw [hr, Option.some.injEq] at hy
  have hinitial : x.filed = x := by
    have hsettlement := (Book.purchases_of_commitPurchase hcommitting.commit).2.1
    rw [PurchaseRecord.filed, ← hsettlement]
  have hrecord : record.filed = x := by rw [hy, hfiled, hinitial]
  refine ⟨?_, es₁, i, es₂, s₁, s₂, r, rfl, h₁, hs, h₂, hrecord ▸ hcommitting⟩
  rw [← hid, ← hrecord]
  rfl

end

end TokenSale
