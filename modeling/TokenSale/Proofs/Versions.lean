import TokenSale.Proofs.Administration

/-!
# TokenSale.Proofs.Versions

The version of a sale counts what was done to it, whatever the clock says.

* `Tracked.ClosesOnce` — one caller at most finalizes the sale, and only once;
* `LockStep.version_cases` — what a step under the lock does that takes a version;
* `Revises`, `Run.revisions` — the version is the number of steps that revise the sale.
-/

namespace TokenSale

/-! ## the sale is finalized once -/

/-- Whether a caller is sending what is unsold to the treasury. -/
def Holding.isFinalizing : Holding → Bool
  | finalizing .. => true
  | _ => false

/-- A holding is replaced by one that looks the same. -/
theorem Tracked.withHolding_map {β : Type} {f : Holding → β} {g : Tracked} {i : Nat} {h : Holding}
    (hi : f h = f (g.holding i)) (j : Nat) :
    f ((g.withHolding i h).holding j) = f (g.holding j) := by
  by_cases hj : j = i
  · subst hj
    rw [withHolding_self, hi]
  · rw [withHolding_ne g hj]

/-- A caller is done with finalizing or told so when its operation ends. -/
theorem Operation.Ends.cases {o : Operation} {h : Holding} {result : o.Result}
    (he : o.Ends h result) : h = .nothing ∨ ∃ c, h = .finalized c := by
  cases o with
  | finalize =>
      cases result with
      | error e => exact .inl he
      | ok unsold =>
          obtain ⟨c, rfl, -⟩ := he
          exact .inr ⟨c, rfl⟩
  | _ => exact .inl he

/-- Whoever is finalizing the sale is the only one, and it is not finalized yet. -/
def Tracked.ClosesOnce (g : Tracked) : Prop :=
  ∀ i, (g.holding i).isFinalizing = true →
    (∀ j, j ≠ i → (g.holding j).isFinalizing = false) ∧
      g.book.finalized = false ∧ g.book.finalizing = true

/-- A step that leaves the flags and who is closing leaves the sale closing once. -/
theorem Tracked.ClosesOnce.of_same {g g' : Tracked} (h : g.ClosesOnce)
    (hsame : ∀ j, (g'.holding j).isFinalizing = (g.holding j).isFinalizing)
    (hflags : g'.book.finalized = g.book.finalized ∧ g'.book.finalizing = g.book.finalizing) :
    g'.ClosesOnce := by
  intro i hi
  rw [hsame] at hi
  obtain ⟨hothers, hfinalized, hfinalizing⟩ := h i hi
  exact ⟨fun j hj => (hsame j).trans (hothers j hj), hflags.1.trans hfinalized,
    hflags.2.trans hfinalizing⟩

/-- As long as the flag is not set nobody is finalizing. -/
theorem Tracked.ClosesOnce.nobody {g : Tracked} (h : g.ClosesOnce)
    (hflag : g.book.finalizing = false) (j : Nat) : (g.holding j).isFinalizing = false := by
  by_contra hj
  have hset := (h j (by simpa using hj)).2.2
  simp [hflag] at hset

/-- An answer does not alter who is closing the sale. -/
theorem Answered.isFinalizing_eq {o : Operation} {h h' : Holding} {c : Call} {a : c.Answer}
    (ha : Answered o h c a h') : h'.isFinalizing = h.isFinalizing := by
  cases ha <;> rfl

/-- **At no time do two callers close the sale.** -/
theorem Tracked.Step.closesOnce {clock : Instant → Instant → Prop} {g g' : Tracked} {e : Event}
    (hs : Tracked.Step clock g e g') (h : g.ClosesOnce) : g'.ClosesOnce := by
  cases hs with
  | tick | begin => exact h.of_same (fun _ => rfl) ⟨rfl, rfl⟩
  | answer ha => exact h.of_same (withHolding_map ha.isFinalizing_eq) ⟨rfl, rfl⟩
  | finish he =>
      refine h.of_same (withHolding_map ?_) ⟨rfl, rfl⟩
      obtain hi | ⟨c, hi⟩ := he.cases
      · rw [hi]
      · rw [hi]
        rfl
  | @lock i o b' h' hs =>
      obtain ⟨hi, hi', hflags⟩ | ⟨c, rfl, hfinalized, hfinalizing, -, -, rfl⟩ |
        hended := hs.closing_cases
      · refine h.of_same (withHolding_map ?_) hflags
        cases hheld : g.holding i <;> cases h' <;>
          simp_all [Holding.isFinalizing, Holding.closing?]
      · have hnobody := h.nobody hfinalizing
        intro j hj
        have hji : j = i := by
          by_contra hne
          have hother : ((g.withHolding i (.finalizing c c.unsold.isZero)).holding j).isFinalizing =
              false := by rw [withHolding_ne g hne, hnobody]
          exact absurd (hother.symm.trans hj) (by simp)
        subst hji
        exact ⟨withHolding_others (P := fun x => x.isFinalizing = false) fun k _ => hnobody k,
          hfinalized, rfl⟩
      · have hheld : (g.holding i).isFinalizing = true ∧ h'.isFinalizing = false := by
          obtain ⟨c, hi, rfl, -⟩ | ⟨c, hi, rfl, -⟩ := hended <;> rw [hi] <;> exact ⟨rfl, rfl⟩
        intro j hj
        have hnone : ((g.withHolding i h').holding j).isFinalizing = false :=
          withHolding_all (P := fun x => x.isFinalizing = false) (h i hheld.1).1 hheld.2 j
        exact absurd (hnone.symm.trans hj) (by simp)

/-! ## the version counts the revisions -/

/-- A run in which a number of occurrences is of a kind. -/
inductive Run.Counts (clock : Instant → Instant → Prop) (P : System → Event → System → Prop)
    (s : System) : List Event → System → Nat → Prop
  | refl : Counts clock P s [] s 0
  | counted {es : List Event} {s' s'' : System} {e : Event} {n : Nat}
      (h : Counts clock P s es s' n) (hs : Step clock s' e s'') (hp : P s' e s'') :
    Counts clock P s (es ++ [e]) s'' (n + 1)
  | skipped {es : List Event} {s' s'' : System} {e : Event} {n : Nat}
      (h : Counts clock P s es s' n) (hs : Step clock s' e s'') (hp : ¬ P s' e s'') :
    Counts clock P s (es ++ [e]) s'' n

/-- A purchase goes on record that was not there. -/
def Book.Gains (b b' : Book) : Prop :=
  ∃ record : PurchaseRecord, b.purchases.get? record.purchaseId = none ∧
    b'.purchases = b.purchases.insert record.purchaseId record

/-- The steps that revise a sale. -/
inductive Revises (s : System) : Event → System → Prop
  /-- Its configuration is changed. -/
  | changed {s' : System} {i : Nat} {o : Operation} {p : Program o.Result}
      (hi : s.sessions i = some ⟨o, p⟩) (ho : o.change?.isSome) (h : o.Makes s.book s'.book) :
    Revises s (.lock i) s'
  /-- Its pause flag is turned over. -/
  | flipped {s' : System} {i : Nat} (h : s'.book.paused ≠ s.book.paused) : Revises s (.lock i) s'
  /-- Something is sold. -/
  | purchased {s' : System} {i : Nat} (h : s.book.Gains s'.book) : Revises s (.lock i) s'
  /-- It is finalized. -/
  | finalized {s' : System} {i : Nat} (h : s.book.finalized = false)
      (h' : s'.book.finalized = true) : Revises s (.lock i) s'

/-- What is on record as before was not gained. -/
theorem Book.not_gains_of_filed {b b' : Book} (h : b'.filed = b.filed) : ¬ b.Gains b' := by
  rintro ⟨record, hfree, hinsert⟩
  have hheld : b'.purchases.get? record.purchaseId = some record := by
    rw [hinsert, Directory.get?_insert_self]
  obtain ⟨x, hx, -⟩ := Book.get?_of_filed h hheld
  rw [hfree] at hx
  contradiction

/-- A step under the lock takes the next version for what it does to the sale,
or does nothing that takes one. -/
theorem LockStep.version_cases {o : Operation} {b b' : Book} {now : Instant} {h h' : Holding}
    (hs : LockStep o b now h b' h') :
    (b'.version = b.version ∧ b'.paused = b.paused ∧ b'.filed = b.filed ∧
        b'.finalized = b.finalized) ∨
      (b'.version = b.version + 1 ∧ ((o.change?.isSome ∧ o.Makes b b') ∨ b'.paused ≠ b.paused ∨
        b.Gains b' ∨ (h.isFinalizing = true ∧ b'.finalized = true))) := by
  cases hs with
  | keep => exact .inl ⟨rfl, rfl, rfl, rfl⟩
  | change ho hc =>
      have hmakes := (Operation.makes_of_change ho hc).1
      exact .inr ⟨hmakes.version_eq, .inl ⟨by rw [ho]; rfl, hmakes⟩⟩
  | setPaused hp =>
      obtain ⟨-, hflag, rfl⟩ := (Operation.makes_of_setPaused hp).1
      exact .inr ⟨rfl, .inr (.inl (by simp [hflag]))⟩
  | commit ho hc =>
      obtain ⟨hfree, -, hinsert, -⟩ := Book.purchases_of_commitPurchase hc
      exact .inr ⟨(Book.holds_of_commitPurchase hc).2, .inr (.inr (.inl ⟨_, hfree, hinsert⟩))⟩
  | beginSettlement ho hb =>
      have hfiled := Book.filed_of_beginSettlement hb
      obtain ⟨t, r, -, -, -, -, -, -, rfl⟩ := Book.beginSettlement_started hb
      exact .inl ⟨rfl, rfl, hfiled, rfl⟩
  | endSettled | endFailed =>
      refine .inl ⟨?_, ?_, Book.filed_endSettlement .., ?_⟩ <;> unfold Book.endSettlement <;>
        split <;> rfl
  | beginFinalize ho hb =>
      obtain ⟨-, -, -, t, -, -, rfl⟩ := Book.beginFinalize_ok hb
      exact .inl ⟨rfl, rfl, rfl, rfl⟩
  | finalize => exact .inr ⟨rfl, .inr (.inr (.inr ⟨rfl, rfl⟩))⟩
  | giveUpFinalize => exact .inl ⟨rfl, rfl, rfl, rfl⟩

section

variable {clock : Instant → Instant → Prop} {t : Instant} {s s' : System} {e e' : Event}
  {es es₁ es₂ es₃ : List Event} {g g' : Tracked} {i v v' : Nat}

/-- A step revises the sale and takes the next version, or it does neither. -/
theorem Step.revises (hs : Step clock s e s') (hg : g.Tracks s) (honce : g.ClosesOnce) :
    (Revises s e s' ∧ s'.book.version = s.book.version + 1) ∨
      (¬ Revises s e s' ∧ s'.book.version = s.book.version) := by
  cases hs with
  | tick | begin | answer | finish => exact .inr ⟨(nomatch ·), rfl⟩
  | @lock i o f k hi =>
      obtain ⟨h', hstep, -⟩ := hg.session hi s.book s.now
      obtain ⟨hversion, hpaused, hfiled, hfinalized⟩ | ⟨hversion, hwhat⟩ := hstep.version_cases
      · refine .inr ⟨fun hrevises => ?_, hversion⟩
        cases hrevises with
        | changed _ _ h =>
            have hnext : (f s.book s.now).version = s.book.version + 1 := h.version_eq
            omega
        | flipped h => exact h hpaused
        | purchased h => exact Book.not_gains_of_filed hfiled h
        | finalized h h' =>
            rw [← hfinalized] at h
            exact absurd (h.symm.trans h') (by simp)
      · refine .inl ⟨?_, hversion⟩
        obtain ⟨ho, hmakes⟩ | hflipped | hgains | ⟨hheld, hfinalized⟩ := hwhat
        · exact .changed hi ho hmakes
        · exact .flipped hflipped
        · exact .purchased hgains
        · obtain ⟨-, hbefore, -⟩ := honce i hheld
          rw [hg.1] at hbefore
          exact .finalized hbefore hfinalized

/-- **The version is the number of steps that revised the sale.** -/
theorem Run.revisions (h : Run clock (.start t) es s) :
    Run.Counts clock Revises (.start t) es s s.book.version := by
  induction h with
  | refl => exact .refl
  | step h hs ih =>
      obtain ⟨g, honce, hg⟩ := h.invariant (P := fun _ g => g.ClosesOnce)
        (fun i hi => by cases hi) fun hg hs => hs.closesOnce hg
      obtain ⟨hrevises, hversion⟩ | ⟨hnot, hversion⟩ := hs.revises hg honce
      · rw [hversion]
        exact .counted ih hs hrevises
      · rw [hversion]
        exact .skipped ih hs hnot

end

end TokenSale
