import TokenSale.Proofs.Services
import TokenSale.Proofs.SettlementScript

/-!
# TokenSale.Proofs.ClosingIssue

What is issued when a sale is finalized.  One caller at most is closing the
sale, so what is unsold is issued once at most; and apart from that nothing is
issued or paid on nobody's behalf.

* `Book.closing?` — what finalizing sends to the treasury;
* `closingIssues` — what was issued so;
* `ClosingIssued` — how that, the book and the callers fit together;
* `Tracked.Step.closingIssued` — every step keeps that;
* `Attributed` — everything else was accepted on behalf of a purchase, or
  announces something.
-/

namespace TokenSale

/-! ## what goes to the treasury -/

/-- What finalizing would send to the treasury. -/
def Book.closing? (b : Book) : Option Book.Closing :=
  b.terms.map fun t =>
    ⟨t.config.saleId, t.config.treasury, t.tiers.totalRemaining, t.tiers.totalSold⟩

/-- The calls that send it there: none if nothing is unsold. -/
def Book.Closing.issues (c : Book.Closing) : List Effect :=
  if c.unsold.isZero then []
  else [.issue (Sale.finalizeId c.saleId) c.treasury c.unsold]

/-- What is issued here to finalize the sale. -/
def Event.closingIssue? : Event → Option Effect
  | answer _ .finalize (.effect (.issue id recipient amount)) (.ok _) =>
    some (.issue id recipient amount)
  | _ => none

theorem Event.closingIssue?_of_settles {i : Nat} {o : Operation} {c : Call} {a : c.Answer}
    (ho : o.settles = true) : (answer i o c a).closingIssue? = none := by
  cases o with
  | purchase | retrySettlement => rfl
  | _ => contradiction

/-- What was issued to finalize the sale. -/
def closingIssues (es : List Event) : List Effect := es.filterMap Event.closingIssue?

theorem closingIssues_append (es : List Event) (e : Event) :
    closingIssues (es ++ [e]) = closingIssues es ++ e.closingIssue?.toList := by
  rw [closingIssues, List.filterMap_append]
  cases he : e.closingIssue? <;> simp [closingIssues, he]

theorem closingIssues_of_none {e : Event} (he : e.closingIssue? = none) (es : List Event) :
    closingIssues (es ++ [e]) = closingIssues es := by
  rw [closingIssues_append, he, Option.toList_none, List.append_nil]

/-! ## the closing of the sale -/

/-- What is unsold has been sent to the treasury, if there was anything. -/
def Tracked.HasIssued (g : Tracked) : Prop :=
  g.book.finalized = true ∨ ∃ i c, g.holding i = .finalizing c true

/-- How what was issued, the book and the callers fit together. -/
structure ClosingIssued (es : List Event) (g : Tracked) : Prop where
  /-- A closing in hand is that of the book. -/
  own : ∀ i c, (g.holding i).closing? = some c → g.book.closing? = some c
  /-- As long as it is to be issued there is something to issue. -/
  due : ∀ i c, g.holding i = .finalizing c false → c.unsold.isZero = false
  before : ¬ g.HasIssued → closingIssues es = []
  after : g.HasIssued → ∃ c, g.book.closing? = some c ∧ closingIssues es = c.issues

namespace Finalization

variable {es : List Event} {g : Tracked} {i : Nat}

/-- Whoever has a closing in hand, the sale is closed. -/
theorem closed_of_closing (h : Finalization es g) (hi : (g.holding i).closing? ≠ none) :
    g.book.state g.now = .closed := by
  cases h with
  | pending others | told others => exact absurd (others i) hi
  | underway holder others flags count closed | untold holder others flag count closed =>
      exact closed.1

/-- A finalized sale is closed. -/
theorem closed_of_finalized (h : Finalization es g) (hf : g.book.finalized = true) :
    g.book.state g.now = .closed := by
  cases h with
  | pending others flags | underway holder others flags =>
      rw [flags.1] at hf
      contradiction
  | untold holder others flag count closed | told others flag count told closed => exact closed.1

/-- A sale whose unsold tokens were issued is closed. -/
theorem closed_of_hasIssued (h : Finalization es g) (hg : g.HasIssued) :
    g.book.state g.now = .closed := by
  obtain hf | ⟨i, c, hi⟩ := hg
  · exact h.closed_of_finalized hf
  · exact h.closed_of_closing (i := i) (by simp [hi, Holding.closing?])

/-- Nobody has a closing in hand before the closing begins. -/
theorem closing?_of_flags (h : Finalization es g)
    (hflags : g.book.finalized = false ∧ g.book.finalizing = false) :
    ∀ j, (g.holding j).closing? = none := by
  cases h with
  | pending others | told others => exact others
  | underway holder others flags =>
      rw [flags.2] at hflags
      exact absurd hflags.2 (by simp)
  | untold holder others flag =>
      rw [flag] at hflags
      exact absurd hflags.1 (by simp)

/-- The caller that is finalizing knows whether the issue is done. -/
theorem hasIssued_iff {c : Book.Closing} {issued : Bool} (h : Finalization es g)
    (hi : g.holding i = .finalizing c issued) : g.HasIssued ↔ issued = true := by
  obtain ⟨others, flags, -⟩ := h.of_finalizing hi
  constructor
  · rintro (hf | ⟨j, c', hj⟩)
    · rw [flags.1] at hf
      contradiction
    · have hji : j = i := by
        by_contra hne
        have hnone := others j hne
        simp [hj, Holding.closing?] at hnone
      subst hji
      rw [hi, Holding.finalizing.injEq] at hj
      exact hj.2
  · rintro rfl
    exact .inr ⟨i, c, hi⟩

end Finalization

namespace ClosingIssued

variable {es : List Event} {g : Tracked} {e : Event} {i : Nat}

/-- What a closed sale has to issue does not change any more. -/
theorem closing?_of_advances {b b' : Book} {now now' : Instant} (h : b.Advances now b' now')
    (hc : b.state now = .closed) : b'.closing? = b.closing? := by
  rw [Book.closing?, Book.closing?, (h.closed hc).2.terms]

/-- Steps that do not concern the closing of the sale. -/
theorem other {b' : Book} {now' : Instant} {holding' : Nat → Holding} (h : ClosingIssued es g)
    (hf : Finalization es g) (hadv : g.book.Advances g.now b' now')
    (hsame : ∀ j, holding' j = g.holding j ∨
      (g.holding j).closing? = none ∧ (holding' j).closing? = none)
    (hflag : b'.finalized = g.book.finalized) (he : e.closingIssue? = none) :
    ClosingIssued (es ++ [e]) ⟨b', now', holding'⟩ := by
  have hkeep {j : Nat} {x : Holding} (hx : x.closing? ≠ none) :
      holding' j = x ↔ g.holding j = x := by
    cases hsame j with
    | inl heq => rw [heq]
    | inr hnone =>
        constructor
        · rintro rfl
          exact absurd hnone.2 hx
        · rintro rfl
          exact absurd hnone.1 hx
  have hissued : Tracked.HasIssued ⟨b', now', holding'⟩ ↔ g.HasIssued :=
    or_congr (by rw [hflag]) (exists_congr fun j => exists_congr fun c =>
      hkeep (by simp [Holding.closing?]))
  refine ⟨fun j c hj => ?_, fun j c hj => ?_, fun hno => ?_, fun hyes => ?_⟩
  · have hj' : (g.holding j).closing? = some c := by
      cases hsame j with
      | inl heq => rwa [← heq]
      | inr hnone => rw [hnone.2] at hj; contradiction
    exact (closing?_of_advances hadv (hf.closed_of_closing (by rw [hj']; simp))).trans
      (h.own j c hj')
  · exact h.due j c ((hkeep (by simp [Holding.closing?])).1 hj)
  · rw [closingIssues_of_none he]
    exact h.before (hissued.not.1 hno)
  · rw [hissued] at hyes
    rw [closingIssues_of_none he]
    obtain ⟨c, hc, hissues⟩ := h.after hyes
    exact ⟨c, (closing?_of_advances hadv (hf.closed_of_hasIssued hyes)).trans hc, hissues⟩

/-- The only caller that may have a closing in hand comes to hold something else. -/
theorem hold {es' : List Event} {b' : Book} {h' : Holding} (h : ClosingIssued es g)
    (others : ∀ j, j ≠ i → (g.holding j).closing? = none)
    (hclosing : b'.closing? = g.book.closing?)
    (hown : ∀ c, h'.closing? = some c → g.book.closing? = some c)
    (hdue : ∀ c, h' = .finalizing c false → c.unsold.isZero = false)
    (hbefore : b'.finalized = false → (∀ c, h' ≠ .finalizing c true) → closingIssues es' = [])
    (hafter : b'.finalized = true ∨ (∃ c, h' = .finalizing c true) →
      ∃ c, g.book.closing? = some c ∧ closingIssues es' = c.issues) :
    ClosingIssued es' { g.withHolding i h' with book := b' } where
  own := Tracked.withHolding_all (P := fun x => ∀ c, x.closing? = some c → b'.closing? = some c)
    (fun j _ => hclosing ▸ h.own j) (hclosing ▸ hown)
  due := Tracked.withHolding_all
    (P := fun x => ∀ c, x = .finalizing c false → c.unsold.isZero = false) (fun j _ => h.due j) hdue
  before hno := by
    refine hbefore (by simpa using fun hf => hno (.inl hf)) fun c hc => hno (.inr ⟨i, c, ?_⟩)
    exact (g.withHolding_self i h').trans hc
  after hyes := by
    rw [hclosing]
    refine hafter (hyes.imp id ?_)
    rintro ⟨j, c, hj⟩
    by_cases hji : j = i
    · subst hji
      exact ⟨c, (g.withHolding_self j h').symm.trans hj⟩
    · have hnone := others j hji
      rw [← g.withHolding_ne hji h', show (g.withHolding i h').holding j = _ from hj] at hnone
      contradiction

end ClosingIssued

/-- A closing in hand is begun from that of the book. -/
theorem LockStep.closing?_eq {o : Operation} {b b' : Book} {now : Instant} {h : Holding}
    {c : Book.Closing} {issued : Bool} (hs : LockStep o b now h b' (.finalizing c issued)) :
    b.closing? = some c ∧ issued = c.unsold.isZero ∧ b'.finalized = b.finalized ∧
      b'.closing? = b.closing? := by
  cases hs with
  | beginFinalize ho hb =>
      obtain ⟨-, -, -, t, ht, rfl, rfl⟩ := Book.beginFinalize_ok hb
      exact ⟨by rw [Book.closing?, ht]; rfl, rfl, rfl, rfl⟩

namespace ClosingIssued

variable {es : List Event} {g : Tracked} {i : Nat} {o : Operation}

/-- A step under the lock. -/
theorem lock {b' : Book} {h' : Holding} (h : ClosingIssued es g) (hf : Finalization es g)
    (hs : LockStep o g.book g.now (g.holding i) b' h') :
    ClosingIssued (es ++ [.lock i]) { g.withHolding i h' with book := b' } := by
  have hquiet : closingIssues (es ++ [.lock i]) = closingIssues es :=
    closingIssues_of_none rfl es
  obtain ⟨hi, hi', hflag, -⟩ | ⟨c, rfl, hfinalized, hfinalizing, -, -, -⟩ |
    ⟨c, hi, rfl, rfl⟩ | ⟨c, hi, rfl, rfl⟩ := hs.closing_cases
  · exact h.other hf hs.advances (Finalization.same_withHolding hi hi') hflag rfl
  · -- the closing begins, so nobody else has one in hand
    have others := hf.closing?_of_flags ⟨hfinalized, hfinalizing⟩
    obtain ⟨hclosing, -, hflag, hsame⟩ := hs.closing?_eq
    have hnil : closingIssues es = [] := h.before (by
      rintro (hyes | ⟨j, c', hj⟩)
      · simp [hfinalized] at hyes
      · have hnone := others j
        simp [hj, Holding.closing?] at hnone)
    refine h.hold (fun j _ => others j) hsame (fun c' hc' => ?_) (fun c' hc' => ?_)
      (fun _ _ => hquiet.trans hnil) fun hyes => ⟨c, hclosing, hquiet.trans (hnil.trans ?_)⟩
    · simp only [Holding.closing?, Option.some.injEq] at hc'
      exact hc' ▸ hclosing
    · simp only [Holding.finalizing.injEq] at hc'
      exact hc'.1 ▸ hc'.2
    · obtain hyes | ⟨c', hc'⟩ := hyes
      · simp [hflag, hfinalized] at hyes
      · simp only [Holding.finalizing.injEq] at hc'
        simp [Book.Closing.issues, hc'.2]
  · obtain ⟨others, -⟩ := hf.of_finalizing hi
    refine h.hold others rfl (fun c' hc' => ?_) (by simp) (by simp [Book.endFinalize])
      fun _ => ?_
    · exact h.own i c' (by simpa [hi, Holding.closing?] using hc')
    · rw [hquiet]
      exact h.after ((hf.hasIssued_iff hi).2 rfl)
  · obtain ⟨others, flags, -⟩ := hf.of_finalizing hi
    refine h.hold others rfl (by simp [Holding.closing?]) (by simp) (fun _ _ => ?_)
      fun hyes => ?_
    · rw [hquiet]
      exact h.before (by simp [hf.hasIssued_iff hi])
    · simp [Book.endFinalize, flags.1] at hyes

/-- An answer; only the one to the issue of the unsold tokens matters. -/
theorem answer {c : Call} {a : c.Answer} {h' : Holding} (h : ClosingIssued es g)
    (hf : Finalization es g) (ha : Answered o (g.holding i) c a h') :
    ClosingIssued (es ++ [.answer i o c a]) (g.withHolding i h') := by
  generalize hi : g.holding i = hold at ha
  have hsame (h₁ : hold.closing? = none) (h₂ : h'.closing? = none)
      (he : (Event.answer i o c a).closingIssue? = none) :
      ClosingIssued (es ++ [.answer i o c a]) (g.withHolding i h') :=
    h.other hf (.refl g.book g.now) (Finalization.same_withHolding (by rw [hi, h₁]) h₂) rfl he
  cases ha with
  | compliance | rate | announced => exact hsame rfl rfl (by cases o <;> rfl)
  | landed ho | refused ho => exact hsame rfl rfl (Event.closingIssue?_of_settles ho)
  | notIssued ho | finalAnnounced ho =>
      subst ho
      exact h.other hf (.refl g.book g.now) (fun j => .inl (by rw [← hi]; simp)) rfl rfl
  | @issued c ho =>
      subst ho
      obtain ⟨others, flags, -⟩ := hf.of_finalizing hi
      have hclosing := h.own i c (by simp [hi, Holding.closing?])
      have hnil : closingIssues es = [] := h.before (by simp [hf.hasIssued_iff hi])
      refine h.hold others rfl (fun c' hc' => ?_) (by simp) (fun _ hno => absurd rfl (hno c))
        fun _ => ⟨c, hclosing, ?_⟩
      · simp only [Holding.closing?, Option.some.injEq] at hc'
        exact hc' ▸ hclosing
      · rw [closingIssues_append, hnil, Book.Closing.issues, h.due i c hi]
        rfl

/-- The end of an operation. -/
theorem finish {result : o.Result} (h : ClosingIssued es g) (hf : Finalization es g)
    (hends : o.Ends (g.holding i) result) :
    ClosingIssued (es ++ [.finish i o result]) (g.withHolding i .nothing) := by
  have hquiet : closingIssues (es ++ [.finish i o result]) = closingIssues es :=
    closingIssues_of_none rfl es
  cases hfinal : (Event.finish i o result).isFinalized with
  | false =>
      have hi : g.holding i = .nothing := Operation.ends_nothing hends hfinal
      exact h.other hf (.refl g.book g.now)
        (Finalization.same_withHolding (by rw [hi]; rfl) rfl) rfl rfl
  | true =>
      obtain ⟨c, hi, -⟩ := Operation.ends_finalized hends hfinal
      obtain ⟨others, flag, -⟩ := hf.of_finalized hi
      refine h.hold others rfl (by simp [Holding.closing?]) (by simp)
        (fun hno => by simp [flag] at hno) fun _ => ?_
      rw [hquiet]
      exact h.after (.inl flag)

end ClosingIssued

/-- **Every step keeps what was issued in step with the closing of the sale.** -/
theorem Tracked.Step.closingIssued {es : List Event} {g g' : Tracked} {e : Event}
    (hs : Tracked.Step Forward g e g') (hf : Finalization es g) (h : ClosingIssued es g) :
    ClosingIssued (es ++ [e]) g' := by
  cases hs with
  | tick hle => exact h.other hf (.of_le hle) (fun _ => .inl rfl) rfl rfl
  | begin o hi => exact h.other hf (.refl g.book g.now) (fun _ => .inl rfl) rfl rfl
  | lock hs => exact h.lock hf hs
  | answer ha => exact h.answer hf ha
  | finish hends => exact h.finish hf hends

/-! ## on whose behalf -/

/-- An accepted call for a purchase is among the effects, under the identity of the
purchase. -/
theorem Event.mem_effects_of_accepted? {e : Event} {id : Uuid} {x : Effect}
    (h : e.accepted? id = some x) : x ∈ e.effects ∧ x.purchaseId? = some id := by
  unfold accepted? at h
  split at h
  · split at h
    next hid =>
      cases h
      exact ⟨List.mem_singleton_self _, hid.2⟩
    · contradiction
  · contradiction

theorem Event.mem_effects_of_closingIssue? {e : Event} {x : Effect}
    (h : e.closingIssue? = some x) : x ∈ e.effects := by
  unfold closingIssue? at h
  split at h
  · cases h
    exact List.mem_singleton_self _
  · contradiction

/-- An answered call has at most the effect that was called for, and only if it was
accepted. -/
theorem Event.eq_of_mem_effects {i : Nat} {o : Operation} {x y : Effect}
    {a : Except CollaboratorError Unit} (h : x ∈ (answer i o (.effect y) a).effects) :
    x = y ∧ a = .ok () := by
  cases a with
  | ok u => exact ⟨List.mem_singleton.1 h, rfl⟩
  | error e => contradiction

/-- Everything that is accepted is so on behalf of a purchase or to finalize
the sale, unless it announces something. -/
theorem Tracked.Step.attributed {clock : Instant → Instant → Prop} {g g' : Tracked} {e : Event}
    (hs : Tracked.Step clock g e g') {x : Effect} (hx : x ∈ e.effects) {id : Uuid}
    (hid : x.purchaseId? = some id) : e.accepted? id = some x ∨ e.closingIssue? = some x := by
  cases hs with
  | tick | begin | lock | finish => contradiction
  | @answer i o c a h' ha =>
      generalize g.holding i = hold at ha
      cases ha with
      | compliance | rate => contradiction
      | announced hnone =>
          rw [(Event.eq_of_mem_effects hx).1, hnone] at hid
          contradiction
      | landed ho =>
          obtain ⟨rfl, -⟩ := Event.eq_of_mem_effects hx
          exact .inl (by simp [Event.accepted?, ho, hid])
      | refused => exact absurd (Event.eq_of_mem_effects hx).2 (by simp)
      | issued ho =>
          subst ho
          exact .inr (congrArg some (Event.eq_of_mem_effects hx).1.symm)
      | notIssued => exact absurd (Event.eq_of_mem_effects hx).2 (by simp)
      | finalAnnounced =>
          rw [(Event.eq_of_mem_effects hx).1] at hid
          contradiction

/-- Everything that was accepted was so on behalf of a purchase or to finalize
the sale, unless it announced something. -/
def Attributed (es : List Event) : Prop :=
  ∀ x id, x.purchaseId? = some id →
    (x ∈ effectsOf es ↔ x ∈ accepted id es ∨ x ∈ closingIssues es)

/-- Each step keeps every effect attributed to a purchase or to the end of the sale.
-/
theorem Attributed.step {clock : Instant → Instant → Prop} {es : List Event} {g g' : Tracked}
    {e : Event} (h : Attributed es) (hs : Tracked.Step clock g e g') : Attributed (es ++ [e]) := by
  intro x id hid
  have hnow : x ∈ e.effects ↔ e.accepted? id = some x ∨ e.closingIssue? = some x := by
    refine ⟨fun hx => hs.attributed hx hid, ?_⟩
    rintro (hx | hx)
    · exact (Event.mem_effects_of_accepted? hx).1
    · exact Event.mem_effects_of_closingIssue? hx
  simp only [effectsOf_append, accepted_append, closingIssues_append, List.mem_append,
    Option.mem_toList, h x id hid, hnow]
  tauto

end TokenSale
