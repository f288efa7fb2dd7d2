import TokenSale.Proofs.Versions

/-!
# TokenSale.Proofs.Announcements

Administration announces every version that it takes, but outside the lock: of
two callers that have both taken one the second may announce its own first.

* `Tracked.Step.version_cases` — a step takes a version, announces one, or neither;
* `Announcing` — the versions that were announced and those that callers still owe;
* `Run.announced_order` — when a greater version is announced before a lesser one;
* `administration_keeps_consistent` — all that administration does to a sale;
* `announced_out_of_order` — two callers that announce their versions in reverse.
-/

namespace TokenSale

section

variable {clock : Instant → Instant → Prop} {t : Instant} {s s' : System} {e e' : Event}
  {es es₁ es₂ es₃ : List Event} {g g' : Tracked} {i v v' : Nat}

/-! ## versions that are announced -/

/-- The version that a caller has taken and is yet to announce. -/
def Holding.version? : Holding → Option Nat
  | announcing event => event.version?
  | _ => none

/-- A caller is yet to announce a version. -/
def Tracked.Owes (g : Tracked) (i v : Nat) : Prop := (g.holding i).version? = some v

/-- All that is left of a caller's operation is to announce a version. -/
def System.Owes (s : System) (i v : Nat) : Prop :=
  ∃ o event k, s.sessions i = some ⟨o, .call (.effect (.emit event)) k⟩ ∧
    event.version? = some v

/-- The versions that were announced, in order. -/
def announcements (es : List Event) : List Nat := es.filterMap Event.announced?

theorem announcements_append (es : List Event) (e : Event) :
    announcements (es ++ [e]) = announcements es ++ e.announced?.toList := by
  rw [announcements, List.filterMap_append]
  cases he : e.announced? <;> simp [announcements, he]

/-- A step under the lock comes to owe an announcement only by a new version, and
then of that one. -/
theorem LockStep.version?_cases {o : Operation} {b b' : Book} {now : Instant} {h h' : Holding}
    (hs : LockStep o b now h b' h') : h.version? = none ∧ (h'.version? = none ∨
      h'.version? = some b'.version ∧ b'.version = b.version + 1) := by
  cases hs with
  | change ho hc =>
      obtain ⟨hmakes, rfl⟩ := Operation.makes_of_change ho hc
      exact ⟨rfl, .inr ⟨rfl, hmakes.version_eq⟩⟩
  | @setPaused paused version b' hp =>
      obtain ⟨hmakes, rfl⟩ := Operation.makes_of_setPaused hp
      exact ⟨rfl, .inr ⟨by cases paused <;> rfl, hmakes.version_eq⟩⟩
  | _ => exact ⟨rfl, .inl rfl⟩

/-- A caller announces what it holds and then holds it no more. -/
theorem Answered.version?_eq {o : Operation} {h h' : Holding} {c : Call} {a : c.Answer}
    (ha : Answered o h c a h') (i : Nat) :
    h.version? = (Event.answer i o c a).announced? ∧ h'.version? = none := by
  cases ha with
  | @landed id record destination p step | @refused id record destination p step =>
      exact ⟨by cases step <;> rfl, rfl⟩
  | _ => exact ⟨rfl, rfl⟩

/-- What the tracked state owes, the system owes. -/
theorem Tracked.Tracks.owes (hg : g.Tracks s) (h : g.Owes i v) : s.Owes i v := by
  unfold Owes at h
  cases hi : s.sessions i with
  | none =>
      rw [hg.idle hi] at h
      contradiction
  | some x =>
      obtain ⟨o, p⟩ := x
      have hp := hg.session hi
      cases hheld : g.holding i with
      | announcing event =>
          rw [hheld] at h hp
          cases p with
          | done result => obtain hends | ⟨c, hends⟩ := hp.cases <;> contradiction
          | locked f k =>
              obtain ⟨h', hstep, -⟩ := hp s.book s.now
              cases hstep
          | call c k =>
              obtain ⟨h', hanswer, -⟩ := hp (Sample.reply c)
              generalize Sample.reply c = a at hanswer
              cases hanswer with
              | announced => exact ⟨o, event, k, hi, h⟩
      | _ =>
          rw [hheld] at h
          contradiction

/-- A step takes a version that is yet to be announced, or announces one, or neither. -/
theorem Tracked.Step.version_cases (hs : Tracked.Step clock g e g') :
    (e.announced? = none ∧ g.book.version ≤ g'.book.version ∧
        ∀ j v, g'.Owes j v → g.Owes j v) ∨
      (e.announced? = none ∧ g'.book.version = g.book.version + 1 ∧
        ∃ i, ∀ j v, g'.Owes j v → j = i ∧ v = g'.book.version ∨ g.Owes j v) ∨
      (g'.book.version = g.book.version ∧ ∃ i v, e.caller? = some i ∧ e.announced? = some v ∧
        g.Owes i v ∧ ∀ j w, g'.Owes j w → j ≠ i ∧ g.Owes j w) := by
  have hother {i : Nat} {h' : Holding} {j w : Nat} (h : (g.withHolding i h').Owes j w) :
      j = i ∧ h'.version? = some w ∨ j ≠ i ∧ g.Owes j w := by
    unfold Owes at h
    by_cases hj : j = i
    · subst hj
      rw [withHolding_self] at h
      exact .inl ⟨rfl, h⟩
    · rw [withHolding_ne g hj] at h
      exact .inr ⟨hj, h⟩
  have hnone {i : Nat} {h' : Holding} (hi' : h'.version? = none) (j w : Nat)
      (h : (g.withHolding i h').Owes j w) : j ≠ i ∧ g.Owes j w := by
    obtain ⟨-, hw⟩ | hold := hother h
    · rw [hi'] at hw
      contradiction
    · exact hold
  cases hs with
  | tick | begin => exact .inl ⟨rfl, Nat.le_refl _, fun _ _ h => h⟩
  | @lock i o b' h' hs =>
      obtain ⟨-, hi' | ⟨hi', hversion⟩⟩ := hs.version?_cases
      · refine .inl ⟨rfl, ?_, fun j w h => (hnone hi' j w h).2⟩
        obtain ⟨hsame, -⟩ | ⟨hnext, -⟩ := hs.version_cases
        · exact Nat.le_of_eq hsame.symm
        · exact Nat.le_of_lt (Nat.lt_of_lt_of_eq (Nat.lt_succ_self _) hnext.symm)
      · refine .inr (.inl ⟨rfl, hversion, i, fun j w h => ?_⟩)
        refine (hother h).imp (fun ⟨hj, hw⟩ => ⟨hj, ?_⟩) And.right
        exact Option.some.inj (hw.symm.trans hi')
  | @answer i o c a h' ha =>
      obtain ⟨htold, hi'⟩ := ha.version?_eq i
      cases hi : (Event.answer i o c a).announced? with
      | none => exact .inl ⟨rfl, Nat.le_refl _, fun j w h => (hnone hi' j w h).2⟩
      | some v => exact .inr (.inr ⟨rfl, i, v, rfl, rfl, htold.trans hi, hnone hi'⟩)
  | @finish i o result he =>
      exact .inl ⟨rfl, Nat.le_refl _, fun j w h => (hnone rfl j w h).2⟩

/-- Versions only grow. -/
theorem Tracked.Step.version_le (hs : Tracked.Step clock g e g') :
    g.book.version ≤ g'.book.version := by
  obtain ⟨-, hle, -⟩ | ⟨-, hnext, -⟩ | ⟨hsame, -⟩ := hs.version_cases
  · exact hle
  · omega
  · exact Nat.le_of_eq hsame.symm

/-- The versions that were announced and those that callers are yet to announce
have all been taken, and they are all different. -/
structure Announcing (es : List Event) (g : Tracked) : Prop where
  told_le : ∀ v ∈ announcements es, v ≤ g.book.version
  owed_le : ∀ i v, g.Owes i v → v ≤ g.book.version
  untold : ∀ i v, g.Owes i v → v ∉ announcements es
  alone : ∀ i j v, g.Owes i v → g.Owes j v → i = j
  nodup : (announcements es).Nodup

namespace Announcing

/-- Nobody takes a version and nobody announces one. -/
theorem keep (h : Announcing es g) (he : e.announced? = none)
    (hle : g.book.version ≤ g'.book.version) (hold : ∀ j w, g'.Owes j w → g.Owes j w) :
    Announcing (es ++ [e]) g' := by
  have hes : announcements (es ++ [e]) = announcements es := by simp [announcements_append, he]
  exact ⟨fun w hw => (h.told_le w (hes ▸ hw)).trans hle,
    fun j w hj => (h.owed_le j w (hold j w hj)).trans hle,
    fun j w hj => hes ▸ h.untold j w (hold j w hj),
    fun j k w hj hk => h.alone j k w (hold j w hj) (hold k w hk), hes ▸ h.nodup⟩

/-- A version is taken: it is greater than all that were announced or are owed. -/
theorem take (h : Announcing es g) (he : e.announced? = none)
    (hnext : g'.book.version = g.book.version + 1)
    (hold : ∀ j w, g'.Owes j w → j = i ∧ w = g'.book.version ∨ g.Owes j w) :
    Announcing (es ++ [e]) g' := by
  have hes : announcements (es ++ [e]) = announcements es := by simp [announcements_append, he]
  have hle : g.book.version ≤ g'.book.version := hnext ▸ Nat.le_succ _
  have hnew (j : Nat) : ¬ g.Owes j g'.book.version := fun hj => by
    have hearly := h.owed_le j _ hj
    omega
  refine ⟨fun w hw => (h.told_le w (hes ▸ hw)).trans hle, fun j w hj => ?_, fun j w hj hw => ?_,
    fun j k w hj hk => ?_, hes ▸ h.nodup⟩
  · obtain ⟨-, rfl⟩ | hj := hold j w hj
    · exact Nat.le_refl _
    · exact (h.owed_le j w hj).trans hle
  · rw [hes] at hw
    obtain ⟨-, rfl⟩ | hj := hold j w hj
    · have hearly := h.told_le _ hw
      omega
    · exact h.untold j w hj hw
  · obtain ⟨rfl, rfl⟩ | hj := hold j w hj
    · obtain ⟨rfl, -⟩ | hk := hold k _ hk
      · rfl
      · exact absurd hk (hnew k)
    · obtain ⟨rfl, rfl⟩ | hk := hold k w hk
      · exact absurd hj (hnew j)
      · exact h.alone j k w hj hk

/-- A version is announced and owed no more. -/
theorem tell (h : Announcing es g) (he : e.announced? = some v)
    (hsame : g'.book.version = g.book.version) (hi : g.Owes i v)
    (hold : ∀ j w, g'.Owes j w → j ≠ i ∧ g.Owes j w) : Announcing (es ++ [e]) g' := by
  have hes : announcements (es ++ [e]) = announcements es ++ [v] := by
    simp [announcements_append, he]
  refine ⟨fun w hw => ?_, fun j w hj => hsame ▸ h.owed_le j w (hold j w hj).2,
    fun j w hj hw => ?_, fun j k w hj hk => h.alone j k w (hold j w hj).2 (hold k w hk).2, ?_⟩
  · rw [hes, List.mem_append, List.mem_singleton] at hw
    obtain hw | rfl := hw
    · exact hsame ▸ h.told_le w hw
    · exact hsame ▸ h.owed_le i w hi
  · obtain ⟨hne, hj⟩ := hold j w hj
    rw [hes, List.mem_append, List.mem_singleton] at hw
    obtain hw | rfl := hw
    · exact h.untold j w hj hw
    · exact hne (h.alone j i w hj hi)
  · rw [hes]
    refine List.nodup_append.2 ⟨h.nodup, by simp, fun a ha b hb => ?_⟩
    obtain rfl := List.mem_singleton.1 hb
    rintro rfl
    exact h.untold i a hi ha

end Announcing

/-- Each step keeps the account of what was announced and what is owed. -/
theorem Tracked.Step.announcing (hs : Tracked.Step clock g e g') (h : Announcing es g) :
    Announcing (es ++ [e]) g' := by
  obtain ⟨he, hle, hold⟩ | ⟨he, hnext, i, hold⟩ | ⟨hsame, i, v, -, he, hi, hold⟩ :=
    hs.version_cases
  · exact h.keep he hle hold
  · exact h.take he hnext hold
  · exact h.tell he hsame hi hold

/-- The account holds after every run. -/
theorem Run.announcing (h : Run clock (.start t) es s) : ∃ g, Announcing es g ∧ g.Tracks s :=
  h.invariant ⟨by simp [announcements], by simp [Tracked.Owes, Tracked.start, Holding.version?],
    by simp [Tracked.Owes, Tracked.start, Holding.version?],
    by simp [Tracked.Owes, Tracked.start, Holding.version?], by simp [announcements]⟩
    fun hg hs => hs.announcing hg

/-! ## the order of announcements -/

/-- A version that a caller owes after a run it owed before, or it was taken since. -/
theorem Tracked.Run.owes (hr : Tracked.Run clock g es g') (h : g'.Owes i v) :
    g.book.version < v ∨ g.Owes i v := by
  have hle {g₁ : Tracked} {es₁ : List Event} (h₁ : Tracked.Run clock g es₁ g₁) :
      g.book.version ≤ g₁.book.version := by
    induction h₁ with
    | refl => exact Nat.le_refl _
    | step _ hs ih => exact ih.trans hs.version_le
  induction hr generalizing i v with
  | refl => exact .inr h
  | step hr hs ih =>
      obtain ⟨-, -, hold⟩ | ⟨-, hnext, j, hold⟩ | ⟨-, j, w, -, -, -, hold⟩ := hs.version_cases
      · exact ih (hold i v h)
      · obtain ⟨-, rfl⟩ | h := hold i v h
        · have hbefore := hle hr
          exact .inl (by omega)
        · exact ih h
      · exact ih (hold i v h).2

/-- What is announced was owed. -/
theorem Tracked.Step.announced (hs : Tracked.Step clock g e g') (he : e.announced? = some v) :
    ∃ i, e.caller? = some i ∧ g.Owes i v ∧ g'.book.version = g.book.version ∧
      ∀ j w, g'.Owes j w → j ≠ i ∧ g.Owes j w := by
  obtain ⟨hnone, -⟩ | ⟨hnone, -⟩ | ⟨hsame, i, w, hi, hw, howes, hold⟩ := hs.version_cases
  · rw [he] at hnone
    contradiction
  · rw [he] at hnone
    contradiction
  · rw [he, Option.some.injEq] at hw
    subst hw
    exact ⟨i, hi, howes, hsame, hold⟩

/-- A greater version is announced before a lesser one only when two callers
have both taken theirs by then. -/
theorem Run.announced_order (h : Run clock (.start t) (es₁ ++ e :: (es₂ ++ e' :: es₃)) s)
    (hv : e.announced? = some v) (hv' : e'.announced? = some v') :
    v < v' ∨ v' < v ∧ ∃ s₁ i j, Run clock (.start t) es₁ s₁ ∧ e.caller? = some i ∧
      e'.caller? = some j ∧ i ≠ j ∧ s₁.Owes i v ∧ s₁.Owes j v' := by
  obtain ⟨s₁, h₁, h⟩ := h.split
  obtain ⟨s₂, hs, h⟩ := h.uncons
  obtain ⟨s₃, h₃, h⟩ := h.split
  obtain ⟨s₄, hs', -⟩ := h.uncons
  obtain ⟨g₁, hann, hg₁⟩ := h₁.announcing
  obtain ⟨g₂, hstep, hg₂⟩ := hs.tracked hg₁
  obtain ⟨g₃, hrun, hg₃⟩ := h₃.tracked hg₂
  obtain ⟨g₄, hstep', -⟩ := hs'.tracked hg₃
  obtain ⟨i, hi, howes, hversion, hold⟩ := hstep.announced hv
  obtain ⟨j, hj, howes', -⟩ := hstep'.announced hv'
  obtain hlate | hearly := hrun.owes howes'
  · have htaken := hann.owed_le i v howes
    exact .inl (by omega)
  · obtain ⟨hne, hearly⟩ := hold j v' hearly
    obtain hlt | rfl | hgt := Nat.lt_trichotomy v v'
    · exact .inl hlt
    · exact absurd (hann.alone j i v hearly howes) hne
    · exact .inr ⟨hgt, s₁, i, j, h₁, hi, hj, hne.symm, hg₁.owes howes, hg₁.owes hearly⟩

/-- At most one operation is under way. -/
def System.IsSerial (s : System) : Prop :=
  ∀ i j, s.sessions i ≠ none → s.sessions j ≠ none → i = j

/-- Operations that never overlap announce their versions in order. -/
theorem Run.announcements_increasing (h : Run clock (.start t) es s)
    (hserial : ∀ es₁ es₂ s₁, es = es₁ ++ es₂ → Run clock (.start t) es₁ s₁ → s₁.IsSerial) :
    (announcements es).Pairwise (· < ·) := by
  have howes {s : System} {i v : Nat} (h : s.Owes i v) : s.sessions i ≠ none := by
    obtain ⟨o, event, k, hi, -⟩ := h
    simp [hi]
  induction h with
  | refl => exact .nil
  | @step es s' s'' e h hs ih =>
      have hbefore := ih fun es₁ es₂ s₁ hes => hserial es₁ (es₂ ++ [e]) s₁ (by simp [hes])
      rw [announcements_append]
      cases hv' : e.announced? with
      | none => simpa using hbefore
      | some v' =>
          refine List.pairwise_append.2 ⟨hbefore, by simp, fun v hv w hw => ?_⟩
          obtain rfl : w = v' := by simpa using hw
          obtain ⟨e₁, he₁, hannounced⟩ := List.mem_filterMap.1 hv
          obtain ⟨es₁, es₂, rfl⟩ := List.append_of_mem he₁
          have hrun := h.step hs
          rw [List.append_assoc, List.cons_append] at hrun
          obtain hlt | ⟨-, s₁, i, j, h₁, -, -, hne, hi, hj⟩ := hrun.announced_order hannounced hv'
          · exact hlt
          · have hone := hserial es₁ (e₁ :: es₂ ++ [e]) s₁ (by simp) h₁
            exact absurd (hone i j (howes hi) (howes hj)) hne

end

/-! ## administration -/

/-- What holds of administration after a run. -/
structure Administration (clock : Instant → Instant → Prop) (t : Instant) (es : List Event)
    (s : System) : Prop where
  /-- The parameters and the tiers have passed their checks, and the limit of
  non-accredited investors is the same in both places. -/
  consistent : s.book.Consistent
  /-- An operation that has ended did all that it says in one step, or nothing. -/
  ended : ∀ before i (o : Operation) (result : o.Result) later,
    es = before ++ .finish i o result :: later → o.IsAdministrative →
    ∃ earlier during s₀ s₁, before = earlier ++ .begin i o :: during ∧
      (∀ e ∈ during, e.isFinishOf i = false) ∧ Run clock (.start t) earlier s₀ ∧
      Administered clock o i s₀ (.begin i o :: during) s₁ result
  /-- One that runs alone from here on ends so too. -/
  alone : ∀ o : Operation, o.IsAdministrative → ∀ reply : (c : Call) → c.Answer,
    o.EndsAlone s.book (o.program.alone reply s.now s.book)
  /-- The version counts what was done. -/
  version : Run.Counts clock Revises (.start t) es s s.book.version
  /-- No version is announced twice, or before it is taken. -/
  announced : (announcements es).Nodup ∧ ∀ v ∈ announcements es, v ≤ s.book.version
  /-- A greater one is announced before a lesser one only when two callers had
  both taken theirs by then. -/
  order : ∀ es₁ e es₂ e' es₃ v v', es = es₁ ++ e :: (es₂ ++ e' :: es₃) →
    e.announced? = some v → e'.announced? = some v' →
    v < v' ∨ v' < v ∧ ∃ s₁ i j, Run clock (.start t) es₁ s₁ ∧ e.caller? = some i ∧
      e'.caller? = some j ∧ i ≠ j ∧ s₁.Owes i v ∧ s₁.Owes j v'
  /-- So if no two operations overlap they are announced in order. -/
  increasing :
    (∀ es₁ es₂ s₁, es = es₁ ++ es₂ → Run clock (.start t) es₁ s₁ → s₁.IsSerial) →
    (announcements es).Pairwise (· < ·)

/-- **Administration keeps a sale consistent**, whoever administers it and
whatever the clock says, and the version counts what was done. -/
theorem administration_keeps_consistent {clock : Instant → Instant → Prop} {t : Instant}
    {es : List Event} {s : System} (h : Run clock (.start t) es s) :
    Administration clock t es s where
  consistent := h.consistent
  ended before i o result later hes ho := by
    subst hes
    exact h.administered ho
  alone o ho reply := Operation.endsAlone ho reply s.now s.book
  version := h.revisions
  announced := by
    obtain ⟨g, hg, hbook, -⟩ := h.announcing
    exact ⟨hg.nodup, hbook ▸ hg.told_le⟩
  order es₁ e es₂ e' es₃ v v' hes hv hv' := by
    subst hes
    exact h.announced_order hv hv'
  increasing hserial := h.announcements_increasing hserial

/-- Two callers stop the sale and let it go on; the second is the first to announce. -/
def Sample.flips : List Event :=
  [.begin 0 (.setPaused true), .lock 0, .begin 1 (.setPaused false), .lock 1,
    .answer 1 (.setPaused false) (.effect (.emit (.unpaused 3))) (.ok ()),
    .answer 0 (.setPaused true) (.effect (.emit (.paused 2))) (.ok ())]

/-- Two operators flip the pause flag and tell of it in the other order. -/
theorem Sample.run_flips : ∃ es s, Run Forward (.start early) (es ++ flips) s ∧
    s.book.terms.isSome ∧ s.book.version = 3 := by
  obtain ⟨es, h⟩ := Sample.run_configured reply
  have h₁ := h.step (.begin (i := 0) (.setPaused true) rfl)
  have h₂ := h₁.step (.lock (i := 0) rfl)
  have h₃ := h₂.step (.begin (i := 1) (.setPaused false) rfl)
  have h₄ := h₃.step (.lock (i := 1) rfl)
  have h₅ := h₄.step (.answer (i := 1) (o := .setPaused false)
    (c := .effect (.emit (.unpaused 3))) (k := fun _ => .done (.ok ())) (.ok ()) rfl)
  have h₆ := h₅.step (.answer (i := 0) (o := .setPaused true)
    (c := .effect (.emit (.paused 2))) (k := fun _ => .done (.ok ())) (.ok ()) rfl)
  refine ⟨es, _, by simpa [flips] using h₆, rfl, rfl⟩

/-- Versions are not always announced in order. -/
theorem announced_out_of_order : ∃ es s,
    Run Forward (.start Sample.early) (es ++ Sample.flips) s ∧
    announcements Sample.flips = [3, 2] ∧
    ¬ (announcements (es ++ Sample.flips)).Pairwise (· < ·) := by
  obtain ⟨es, s, h, -⟩ := Sample.run_flips
  refine ⟨es, s, h, rfl, fun hsorted => ?_⟩
  rw [announcements, List.filterMap_append, List.pairwise_append] at hsorted
  exact absurd hsorted.2.1 (by decide)

/-- But such a sale is consistent, and its version is the third. -/
theorem administration_keeps_flipped_sale : ∃ es s, Run Forward (.start Sample.early) es s ∧
    s.book.terms.isSome ∧ s.book.version = 3 ∧ Administration Forward Sample.early es s := by
  obtain ⟨es, s, h, hterms, hversion⟩ := Sample.run_flips
  exact ⟨_, s, h, hterms, hversion, administration_keeps_consistent h⟩

end TokenSale
