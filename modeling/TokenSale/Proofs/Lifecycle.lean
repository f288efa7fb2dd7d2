import TokenSale.Proofs.Commit
import TokenSale.Proofs.Protocol
import TokenSale.Proofs.Records

/-!
# TokenSale.Proofs.Lifecycle

The life of a sale under a clock that never goes backwards.  The state is not
kept anywhere, so what holds it in place is the book: `Book.Advances` says what
every step keeps of it, and a run is a chain of such steps.

* `Tracked.Run.advances` — parameters are fixed once the sale has opened, and
  all sums once it has closed;
* `Run.finalization` — at most one caller closes the sale;
* `Run.refused_of_begin` — configuration comes too late once it has opened;
* `lifecycle_of_run` — all of it put together for every run.
-/

namespace TokenSale

/-! ## what stays as it is -/

namespace Book

/-- What is fixed once the sale has opened: the parameters, the shapes of the
tiers, and the limits. -/
structure Fixed (b b' : Book) : Prop where
  config : b'.config? = b.config?
  specs : b'.terms.map (fun t => t.tiers.specs) = b.terms.map fun t => t.tiers.specs
  limit : b'.caps.nonAccreditedLimit = b.caps.nonAccreditedLimit
  overrides : b'.caps.overrides = b.caps.overrides

/-- What is fixed once the sale has closed: everything that a purchase changes. -/
structure Sealed (b b' : Book) : Prop where
  terms : b'.terms = b.terms
  caps : b'.caps = b.caps
  unitsRaised : b'.unitsRaised = b.unitsRaised
  fundsRaised : b'.fundsRaised = b.fundsRaised
  tokensByCurrency : b'.tokensByCurrency = b.tokensByCurrency
  filed : b'.filed = b.filed

theorem Fixed.refl (b : Book) : b.Fixed b := ⟨rfl, rfl, rfl, rfl⟩

theorem Fixed.trans {b b' b'' : Book} (h : b.Fixed b') (h' : b'.Fixed b'') : b.Fixed b'' :=
  ⟨h'.config.trans h.config, h'.specs.trans h.specs, h'.limit.trans h.limit,
    h'.overrides.trans h.overrides⟩

theorem Sealed.refl (b : Book) : b.Sealed b := ⟨rfl, rfl, rfl, rfl, rfl, rfl⟩

theorem Sealed.trans {b b' b'' : Book} (h : b.Sealed b') (h' : b'.Sealed b'') : b.Sealed b'' :=
  ⟨h'.terms.trans h.terms, h'.caps.trans h.caps, h'.unitsRaised.trans h.unitsRaised,
    h'.fundsRaised.trans h.fundsRaised, h'.tokensByCurrency.trans h.tokensByCurrency,
    h'.filed.trans h.filed⟩

theorem Sealed.fixed {b b' : Book} (h : b.Sealed b') : b.Fixed b' :=
  ⟨by rw [config?, config?, h.terms], by rw [h.terms], by rw [h.caps], by rw [h.caps]⟩

/-- Everything that is left of all tiers. -/
def totalRemaining (b : Book) : Tokens := (b.terms.map fun t => t.tiers.totalRemaining).getD .zero

variable {b b' b'' : Book} {now now' now'' : Instant}

/-- A sale has opened once its start is reached. -/
theorem hasOpened_iff_config? :
    b.HasOpened now ↔ ∃ c, b.config? = some c ∧ c.startTime ≤ now := by
  simp only [HasOpened, config?, Option.map_eq_some_iff]
  constructor
  · rintro ⟨t, ht, hle⟩
    exact ⟨t.config, ⟨t, ht, rfl⟩, hle⟩
  · rintro ⟨c, ⟨t, ht, rfl⟩, hle⟩
    exact ⟨t, ht, hle⟩

theorem HasOpened.of_fixed (h : b.HasOpened now) (hf : b.Fixed b') : b'.HasOpened now := by
  rw [hasOpened_iff_config?, hf.config]
  exact hasOpened_iff_config?.1 h

/-- A sale that has opened does not become unopened. -/
theorem HasOpened.mono (h : b.HasOpened now) (hle : now ≤ now') : b.HasOpened now' := by
  obtain ⟨t, ht, hstart⟩ := h
  exact ⟨t, ht, Instant.le_trans hstart hle⟩

theorem hasOpened_of_closed (h : b.state now = .closed) : b.HasOpened now :=
  hasOpened_iff_state.2 (.inr h)

/-- A closed sale stays closed as time goes by. -/
theorem closed_mono (h : b.state now = .closed) (hle : now ≤ now') : b.state now' = .closed := by
  obtain ⟨t, ht, hstart, hend⟩ := state_eq_closed_iff.1 h
  exact state_eq_closed_iff.2 ⟨t, ht, Instant.le_trans hstart hle,
    hend.imp (fun hend => Instant.le_trans hend hle) id⟩

/-- A sealed step leaves the state of the sale. -/
theorem state_eq_of_sealed (h : b.Sealed b') : b'.state now = b.state now := by
  unfold state config? isSoldOut
  rw [h.terms]

/-- What a sale keeps from one moment to a later one. -/
structure Advances (b : Book) (now : Instant) (b' : Book) (now' : Instant) : Prop where
  configured : b.terms.isSome → b'.terms.isSome
  opened : b.HasOpened now → b'.HasOpened now' ∧ b.Fixed b'
  closed : b.state now = .closed → b'.state now' = .closed ∧ b.Sealed b'

namespace Advances

theorem refl (b : Book) (now : Instant) : b.Advances now b now :=
  ⟨id, fun h => ⟨h, .refl b⟩, fun h => ⟨h, .refl b⟩⟩

theorem trans (h : b.Advances now b' now') (h' : b'.Advances now' b'' now'') :
    b.Advances now b'' now'' where
  configured := h'.configured ∘ h.configured
  opened ho :=
    have ⟨ho', hf⟩ := h.opened ho
    have ⟨ho'', hf'⟩ := h'.opened ho'
    ⟨ho'', hf.trans hf'⟩
  closed hc :=
    have ⟨hc', hs⟩ := h.closed hc
    have ⟨hc'', hs'⟩ := h'.closed hc'
    ⟨hc'', hs.trans hs'⟩

theorem of_le (h : now ≤ now') : b.Advances now b now' :=
  ⟨id, fun ho => ⟨ho.mono h, .refl b⟩, fun hc => ⟨closed_mono hc h, .refl b⟩⟩

/-- Nothing changes that a purchase or a change of parameters would change. -/
theorem of_sealed (h : b.Sealed b') : b.Advances now b' now where
  configured ht := by rwa [h.terms]
  opened ho := ⟨ho.of_fixed h.fixed, h.fixed⟩
  closed hc := ⟨(state_eq_of_sealed h).trans hc, h⟩

/-- The state never moves down. -/
theorem rank_le (h : b.Advances now b' now') : (b.state now).rank ≤ (b'.state now').rank := by
  have hrank {c : Book} {t : Instant} (hc : c.HasOpened t) : 2 ≤ (c.state t).rank := by
    cases hasOpened_iff_state.1 hc with
    | inl hs => rw [hs]; decide
    | inr hs => rw [hs]; decide
  cases hs : b.state now with
  | unconfigured => exact Nat.zero_le _
  | scheduled =>
      have ht : b.terms.isSome := by
        by_contra hnone
        rw [state_eq_of_none (by simpa using hnone)] at hs
        contradiction
      obtain ⟨t, ht'⟩ := Option.isSome_iff_exists.1 (h.configured ht)
      rw [state_eq_of_terms ht', SaleState.derive]
      split
      · decide
      · split <;> decide
  | opened => exact hrank (h.opened (hasOpened_iff_state.2 (.inl hs))).1
  | closed => exact Nat.le_of_eq (congrArg SaleState.rank (h.closed hs).1.symm)

end Advances

/-! ## the steps -/

/-- Storing progress is sealed. -/
theorem sealed_of_endSettlement (b : Book) (id : Uuid) (p : SettlementProgress)
    (failure : Option CollaboratorError) : b.Sealed (b.endSettlement id p failure) := by
  have hfiled := filed_endSettlement b id p failure
  unfold endSettlement at hfiled ⊢
  split
  · exact .refl b
  next r hr =>
    simp only [hr] at hfiled
    exact ⟨rfl, rfl, rfl, rfl, rfl, hfiled⟩

/-- Starting a settlement is sealed. -/
theorem sealed_of_beginSettlement {id : Uuid} {record : PurchaseRecord} {destination : String}
    (h : b.beginSettlement id = .ok (.started record destination, b')) : b.Sealed b' := by
  have hfiled := filed_of_beginSettlement h
  obtain ⟨t, r, -, -, -, -, -, -, rfl⟩ := beginSettlement_started h
  exact ⟨rfl, rfl, rfl, rfl, rfl, hfiled⟩

theorem sealed_of_endFinalize (b : Book) (issued : Bool) : b.Sealed (b.endFinalize issued) := by
  cases issued <;> exact ⟨rfl, rfl, rfl, rfl, rfl, rfl⟩

theorem isSome_terms_of_change {c : Change} {version : Nat}
    (h : b.change c now = .ok (version, b')) : b'.terms.isSome := by
  obtain ⟨-, -, t, limit, overrides, rfl, -⟩ := change_ok h
  rfl

/-- Parameters change only before the sale has opened. -/
theorem advances_of_change {c : Change} {version : Nat}
    (h : b.change c now = .ok (version, b')) : b.Advances now b' now where
  configured _ := isSome_terms_of_change h
  opened ho := absurd ho (change_ok h).1
  closed hc := absurd (hasOpened_of_closed hc) (change_ok h).1

/-- A purchase leaves the parameters fixed. -/
theorem fixed_of_commitPurchase {r : PurchaseRequest} {checked : Checked}
    {record : PurchaseRecord} (h : b.commitPurchase r checked now = .ok (record, b')) :
    b.Fixed b' := by
  obtain ⟨t, tiers, caps, unitsRaised, fundsRaised, tokensByCurrency, id, nextSeq, ht, hcommit, -,
    -, -, -, -, rfl⟩ := recordPlan_ok (commitPurchase_ok h).2.1
  obtain ⟨hsold, hspend⟩ := commitPlan_ok hcommit
  obtain ⟨state, rfl, -⟩ := CapTracker.commitSpend_ok hspend
  refine ⟨?_, ?_, rfl, rfl⟩
  · simp [config?, ht]
  · simp [ht, hsold.specs]

/-- Purchases are committed only while the sale is open. -/
theorem advances_of_commitPurchase {r : PurchaseRequest} {checked : Checked}
    {record : PurchaseRecord} (h : b.commitPurchase r checked now = .ok (record, b')) :
    b.Advances now b' now := by
  have hopen : b.state now = .opened := (plan_ok (commitPurchase_ok h).1).1
  have hfixed := fixed_of_commitPurchase h
  refine ⟨fun ht => ?_, fun ho => ⟨ho.of_fixed hfixed, hfixed⟩, fun hc => ?_⟩
  · have hc := hfixed.config
    simp only [config?] at hc
    rw [← Option.isSome_map (f := Terms.config), hc, Option.isSome_map]
    exact ht
  · rw [hopen] at hc
    contradiction

end Book

/-- A step under the lock changes the parameters, commits a purchase, or leaves
alone all that those change. -/
theorem LockStep.book_cases {o : Operation} {b b' : Book} {now : Instant} {h h' : Holding}
    (hs : LockStep o b now h b' h') :
    b.Sealed b' ∨
      (∃ c version, o.change? = some (.ok c) ∧ b.change c now = .ok (version, b')) ∨
      ∃ r checked record, o = .purchase r ∧ b.commitPurchase r checked now = .ok (record, b') := by
  cases hs with
  | keep => exact .inl (.refl b)
  | change ho hc => exact .inr (.inl ⟨_, _, ho, hc⟩)
  | setPaused hp =>
      obtain ⟨hv, -⟩ | ⟨-, rfl⟩ := Book.setPaused_ok hp
      · contradiction
      · exact .inl ⟨rfl, rfl, rfl, rfl, rfl, rfl⟩
  | commit ho hc => exact .inr (.inr ⟨_, _, _, ho, hc⟩)
  | beginSettlement ho hb => exact .inl (Book.sealed_of_beginSettlement hb)
  | endSettled | endFailed => exact .inl (Book.sealed_of_endSettlement ..)
  | beginFinalize ho hb =>
      obtain ⟨-, -, -, t, -, -, rfl⟩ := Book.beginFinalize_ok hb
      exact .inl ⟨rfl, rfl, rfl, rfl, rfl, rfl⟩
  | finalize | giveUpFinalize => exact .inl (Book.sealed_of_endFinalize ..)

/-- **Whatever an operation does under the lock, the sale only advances.** -/
theorem LockStep.advances {o : Operation} {b b' : Book} {now : Instant} {h h' : Holding}
    (hs : LockStep o b now h b' h') : b.Advances now b' now := by
  obtain hsealed | ⟨c, version, -, hc⟩ | ⟨r, checked, record, -, hc⟩ := hs.book_cases
  · exact .of_sealed hsealed
  · exact Book.advances_of_change hc
  · exact Book.advances_of_commitPurchase hc

theorem Tracked.Step.advances {g g' : Tracked} {e : Event} (h : Tracked.Step Forward g e g') :
    g.book.Advances g.now g'.book g'.now := by
  cases h with
  | tick hle => exact .of_le hle
  | lock hs => exact hs.advances
  | begin | answer | finish => exact .refl ..

/-- What a run under a forward clock keeps. -/
theorem Tracked.Run.advances {g g' : Tracked} {es : List Event} (h : Tracked.Run Forward g es g') :
    g.book.Advances g.now g'.book g'.now := by
  induction h with
  | refl => exact .refl ..
  | step _ hs ih => exact ih.trans hs.advances

/-! ## the closing of the sale -/

/-- The closing that a caller has in hand. -/
def Holding.closing? : Holding → Option Book.Closing
  | finalizing c _ | finalized c => some c
  | _ => none

/-- Whether a caller is told here that the sale is finalized. -/
def Event.isFinalized : Event → Bool
  | finish _ .finalize (.ok _) => true
  | _ => false

/-- How often callers were told that the sale is finalized. -/
def finalizations (es : List Event) : Nat := es.countP Event.isFinalized

/-- Where the closing of the sale stands.  One caller at most has it in hand,
and the flags of the book tell how far it has come. -/
inductive Finalization (es : List Event) (g : Tracked) : Prop
  /-- Nobody is closing the sale. -/
  | pending (others : ∀ j, (g.holding j).closing? = none)
      (flags : g.book.finalized = false ∧ g.book.finalizing = false)
      (count : finalizations es = 0)
  /-- A caller has begun to close it. -/
  | underway {i : Nat} {c : Book.Closing} {issued : Bool}
      (holder : g.holding i = .finalizing c issued)
      (others : ∀ j, j ≠ i → (g.holding j).closing? = none)
      (flags : g.book.finalized = false ∧ g.book.finalizing = true)
      (count : finalizations es = 0)
      (closed : g.book.state g.now = .closed ∧ g.book.totalRemaining = c.unsold)
  /-- It is finalized and its caller has not yet been told. -/
  | untold {i : Nat} {c : Book.Closing} (holder : g.holding i = .finalized c)
      (others : ∀ j, j ≠ i → (g.holding j).closing? = none)
      (flag : g.book.finalized = true) (count : finalizations es = 0)
      (closed : g.book.state g.now = .closed ∧ g.book.totalRemaining = c.unsold)
  /-- It is finalized and a caller was told so. -/
  | told {c : Book.Closing} (others : ∀ j, (g.holding j).closing? = none)
      (flag : g.book.finalized = true) (count : finalizations es = 1)
      (told : ∀ i unsold, .finish i .finalize (.ok unsold) ∈ es → unsold = c.unsold)
      (closed : g.book.state g.now = .closed ∧ g.book.totalRemaining = c.unsold)

namespace Finalization

variable {es : List Event} {g g' : Tracked} {e : Event} {i : Nat} {c : Book.Closing}

/-- A closed sale stays closed with the same tokens unsold. -/
theorem closed_of_advances {b b' : Book} {now now' : Instant} {unsold : Tokens}
    (h : b.Advances now b' now') (hc : b.state now = .closed ∧ b.totalRemaining = unsold) :
    b'.state now' = .closed ∧ b'.totalRemaining = unsold := by
  obtain ⟨hstate, hsealed⟩ := h.closed hc.1
  refine ⟨hstate, ?_⟩
  rw [Book.totalRemaining, hsealed.terms]
  exact hc.2

/-- Steps of callers that have no closing in hand, before or after. -/
theorem other {b' : Book} {now' : Instant} {holding' : Nat → Holding} (h : Finalization es g)
    (hadv : g.book.Advances g.now b' now')
    (hsame : ∀ j, holding' j = g.holding j ∨
      (g.holding j).closing? = none ∧ (holding' j).closing? = none)
    (hflags : b'.finalized = g.book.finalized ∧ b'.finalizing = g.book.finalizing)
    (he : e.isFinalized = false) : Finalization (es ++ [e]) ⟨b', now', holding'⟩ := by
  have hcount : finalizations (es ++ [e]) = finalizations es := by simp [finalizations, he]
  have hkeep {i : Nat} {x : Holding} (hi : g.holding i = x) (hx : x.closing? ≠ none) :
      holding' i = x := by
    cases hsame i with
    | inl heq => exact heq.trans hi
    | inr hnone => exact absurd (hi ▸ hnone.1) hx
  have hfree {j : Nat} (hj : (g.holding j).closing? = none) : (holding' j).closing? = none := by
    cases hsame j with
    | inl heq => rw [heq]; exact hj
    | inr hnone => exact hnone.2
  cases h with
  | pending others flags count =>
      exact .pending (fun j => hfree (others j)) ⟨hflags.1.trans flags.1, hflags.2.trans flags.2⟩
        (hcount.trans count)
  | underway holder others flags count closed =>
      exact .underway (hkeep holder (by simp [Holding.closing?]))
        (fun j hj => hfree (others j hj)) ⟨hflags.1.trans flags.1, hflags.2.trans flags.2⟩
        (hcount.trans count) (closed_of_advances hadv closed)
  | untold holder others flag count closed =>
      exact .untold (hkeep holder (by simp [Holding.closing?])) (fun j hj => hfree (others j hj))
        (hflags.1.trans flag) (hcount.trans count) (closed_of_advances hadv closed)
  | told others flag count told closed =>
      refine .told (fun j => hfree (others j)) (hflags.1.trans flag) (hcount.trans count)
        (fun i unsold hmem => ?_) (closed_of_advances hadv closed)
      rw [List.mem_append, List.mem_singleton] at hmem
      cases hmem with
      | inl hmem => exact told i unsold hmem
      | inr heq => simp [← heq, Event.isFinalized] at he

/-- A caller that is not closing the sale leaves who is. -/
theorem same_withHolding {h' : Holding} (hi : (g.holding i).closing? = none)
    (hi' : h'.closing? = none) (j : Nat) : (g.withHolding i h').holding j = g.holding j ∨
      (g.holding j).closing? = none ∧ ((g.withHolding i h').holding j).closing? = none :=
  Tracked.withHolding_same (P := fun x => x.closing? = none) hi hi' j

/-- A caller that is finalizing is the only one. -/
theorem of_finalizing {issued : Bool} (h : Finalization es g)
    (hi : g.holding i = .finalizing c issued) :
    (∀ j, j ≠ i → (g.holding j).closing? = none) ∧
      (g.book.finalized = false ∧ g.book.finalizing = true) ∧ finalizations es = 0 ∧
      g.book.state g.now = .closed ∧ g.book.totalRemaining = c.unsold := by
  have hsome : (g.holding i).closing? ≠ none := by simp [hi, Holding.closing?]
  cases h with
  | pending others | told others => exact absurd (others i) hsome
  | @underway k _ _ holder others flags count closed =>
      have hik : i = k := by_contra fun hne => hsome (others i hne)
      subst hik
      rw [hi, Holding.finalizing.injEq] at holder
      obtain ⟨rfl, -⟩ := holder
      exact ⟨others, flags, count, closed⟩
  | @untold k _ holder others =>
      have hik : i = k := by_contra fun hne => hsome (others i hne)
      subst hik
      rw [hi] at holder
      contradiction

/-- A caller that has finalized the sale is the only one. -/
theorem of_finalized (h : Finalization es g) (hi : g.holding i = .finalized c) :
    (∀ j, j ≠ i → (g.holding j).closing? = none) ∧ g.book.finalized = true ∧
      finalizations es = 0 ∧ g.book.state g.now = .closed ∧ g.book.totalRemaining = c.unsold := by
  have hsome : (g.holding i).closing? ≠ none := by simp [hi, Holding.closing?]
  cases h with
  | pending others | told others => exact absurd (others i) hsome
  | @underway k _ _ holder others =>
      have hik : i = k := by_contra fun hne => hsome (others i hne)
      subst hik
      rw [hi] at holder
      contradiction
  | @untold k _ holder others flag count closed =>
      have hik : i = k := by_contra fun hne => hsome (others i hne)
      subst hik
      rw [hi, Holding.finalized.injEq] at holder
      subst holder
      exact ⟨others, flag, count, closed⟩

end Finalization

/-- A step under the lock leaves the closing alone, or begins or ends it. -/
theorem LockStep.closing_cases {o : Operation} {b b' : Book} {now : Instant} {h h' : Holding}
    (hs : LockStep o b now h b' h') :
    (h.closing? = none ∧ h'.closing? = none ∧ b'.finalized = b.finalized ∧
        b'.finalizing = b.finalizing) ∨
      (∃ c, h' = .finalizing c c.unsold.isZero ∧ b.finalized = false ∧ b.finalizing = false ∧
        b.state now = .closed ∧ b.totalRemaining = c.unsold ∧ b' = { b with finalizing := true }) ∨
      (∃ c, h = .finalizing c true ∧ h' = .finalized c ∧ b' = b.endFinalize true) ∨
      ∃ c, h = .finalizing c false ∧ h' = .nothing ∧ b' = b.endFinalize false := by
  cases hs with
  | keep => exact .inl ⟨rfl, rfl, rfl, rfl⟩
  | change ho hc =>
      obtain ⟨-, -, t, limit, overrides, rfl, -⟩ := Book.change_ok hc
      exact .inl ⟨rfl, rfl, rfl, rfl⟩
  | setPaused hp =>
      obtain ⟨hv, -⟩ | ⟨-, rfl⟩ := Book.setPaused_ok hp
      · contradiction
      · exact .inl ⟨rfl, rfl, rfl, rfl⟩
  | commit ho hc =>
      obtain ⟨t, tiers, caps, unitsRaised, fundsRaised, tokensByCurrency, id, nextSeq, -, -, -, -,
        -, -, -, rfl⟩ := Book.recordPlan_ok (Book.commitPurchase_ok hc).2.1
      exact .inl ⟨rfl, rfl, rfl, rfl⟩
  | beginSettlement ho hb =>
      obtain ⟨t, r, -, -, -, -, -, -, rfl⟩ := Book.beginSettlement_started hb
      exact .inl ⟨rfl, rfl, rfl, rfl⟩
  | endSettled | endFailed =>
      refine .inl ⟨rfl, rfl, ?_⟩
      unfold Book.endSettlement
      split <;> exact ⟨rfl, rfl⟩
  | beginFinalize ho hb =>
      obtain ⟨hfinalized, hfinalizing, hstate, t, ht, rfl, rfl⟩ := Book.beginFinalize_ok hb
      exact .inr (.inl ⟨_, rfl, hfinalized, hfinalizing, hstate, by simp [Book.totalRemaining, ht],
        rfl⟩)
  | finalize => exact .inr (.inr (.inl ⟨_, rfl, rfl, rfl⟩))
  | giveUpFinalize => exact .inr (.inr (.inr ⟨_, rfl, rfl, rfl⟩))

/-- An operation that did not finalize the sale ends with nothing in hand. -/
theorem Operation.ends_nothing {o : Operation} {h : Holding} {result : o.Result} {i : Nat}
    (he : o.Ends h result) (hf : (Event.finish i o result).isFinalized = false) : h = .nothing := by
  cases o with
  | finalize =>
      cases result with
      | error e => exact he
      | ok unsold => simp [Event.isFinalized] at hf
  | _ => exact he

/-- An operation that did reports the unsold tokens that it issued. -/
theorem Operation.ends_finalized {o : Operation} {h : Holding} {result : o.Result} {i : Nat}
    (he : o.Ends h result) (hf : (Event.finish i o result).isFinalized = true) :
    ∃ c, h = .finalized c ∧ Event.finish i o result = .finish i .finalize (.ok c.unsold) := by
  cases o with
  | finalize =>
      cases result with
      | error e => simp [Event.isFinalized] at hf
      | ok unsold =>
          obtain ⟨c, rfl, rfl⟩ := he
          exact ⟨c, rfl, rfl⟩
  | _ => simp [Event.isFinalized] at hf

/-- One step takes the closing from one phase to the next, or leaves it where it is. -/
theorem Tracked.Step.finalization {es : List Event} {g g' : Tracked} {e : Event}
    (hs : Tracked.Step Forward g e g') (h : Finalization es g) : Finalization (es ++ [e]) g' := by
  have hadv := hs.advances
  cases hs with
  | tick hle => exact h.other hadv (fun _ => .inl rfl) ⟨rfl, rfl⟩ rfl
  | begin o hi => exact h.other hadv (fun _ => .inl rfl) ⟨rfl, rfl⟩ rfl
  | @lock i o b' h' hs =>
      have hcount : finalizations (es ++ [.lock i]) = finalizations es := by
        simp [finalizations, Event.isFinalized]
      obtain ⟨hi, hi', hflags⟩ | ⟨c, rfl, hfinalized, hfinalizing, hstate, hrest, rfl⟩ |
        ⟨c, hi, rfl, rfl⟩ | ⟨c, hi, rfl, rfl⟩ := hs.closing_cases
      · exact h.other hadv (Finalization.same_withHolding hi hi') hflags rfl
      -- the flags let a caller start only while nobody is closing the sale
      · cases h with
        | pending others flags count =>
            exact .underway (g.withHolding_self i _)
              (withHolding_others (P := fun x => x.closing? = none) fun j _ => others j)
              ⟨hfinalized, rfl⟩ (hcount.trans count) ⟨hstate, hrest⟩
        | underway holder others flags => simp [flags.2] at hfinalizing
        | untold holder others flag => simp [flag] at hfinalized
        | told others flag => simp [flag] at hfinalized
      · obtain ⟨others, -, count, closed⟩ := h.of_finalizing hi
        exact .untold (g.withHolding_self i _)
          (withHolding_others (P := fun x => x.closing? = none) others) rfl (hcount.trans count)
          closed
      · obtain ⟨others, flags, count, -⟩ := h.of_finalizing hi
        exact .pending (withHolding_all (P := fun x => x.closing? = none) others rfl)
          ⟨flags.1, rfl⟩ (hcount.trans count)
  | @answer i o call a h' ha =>
      have hsame : g.holding i = h' ∨
          ((g.holding i).closing? = none ∧ h'.closing? = none) ∨
          ∃ c, g.holding i = .finalizing c false ∧ h' = .finalizing c true := by
        generalize g.holding i = hold at ha
        cases ha with
        | issued => exact .inr (.inr ⟨_, rfl, rfl⟩)
        | notIssued | finalAnnounced => exact .inl rfl
        | compliance | rate | announced | landed | refused => exact .inr (.inl ⟨rfl, rfl⟩)
      obtain rfl | ⟨hi, hi'⟩ | ⟨c, hi, rfl⟩ := hsame
      · exact h.other hadv (fun j => .inl (by simp)) ⟨rfl, rfl⟩ rfl
      · exact h.other hadv (Finalization.same_withHolding hi hi') ⟨rfl, rfl⟩ rfl
      · obtain ⟨others, flags, count, closed⟩ := h.of_finalizing hi
        exact .underway (g.withHolding_self i _)
          (withHolding_others (P := fun x => x.closing? = none) others) flags
          (by simpa [finalizations, Event.isFinalized] using count) closed
  | @finish i o result hends =>
      cases hf : (Event.finish i o result).isFinalized with
      | false =>
          have hi : g.holding i = .nothing := Operation.ends_nothing hends hf
          exact h.other hadv (Finalization.same_withHolding (by rw [hi]; rfl) rfl) ⟨rfl, rfl⟩ hf
      | true =>
          obtain ⟨c, hi, he⟩ := Operation.ends_finalized hends hf
          obtain ⟨others, flag, count, closed⟩ := h.of_finalized hi
          refine .told (withHolding_all (P := fun x => x.closing? = none) others rfl) flag ?_
            (fun j unsold hmem => ?_) closed
          · simpa [finalizations, hf] using count
          · rw [he, List.mem_append, List.mem_singleton] at hmem
            cases hmem with
            | inl hmem =>
                have hnone := List.countP_eq_zero.1 count _ hmem
                simp [Event.isFinalized] at hnone
            | inr heq =>
                simp only [Event.finish.injEq, heq_eq_eq, Except.ok.injEq] at heq
                simp_all

/-- **At most one caller closes a sale**, and what it is told stays true. -/
theorem Run.finalization {t : Instant} {es : List Event} {s : System}
    (h : Run Forward (.start t) es s) : ∃ g, Finalization es g ∧ g.Tracks s :=
  h.invariant (.pending (fun _ => rfl) ⟨rfl, rfl⟩ rfl) fun hf hs => hs.finalization hf

/-! ## configuration once the sale has opened -/

namespace Operation

/-- How a configuration operation is refused once its sale has opened. -/
def Refused (o : Operation) (result : o.Result) : Prop :=
  ∃ e, result = .error e ∧
    match o.change? with
    | some (.error fault) => e = .invalidConfig fault
    | _ => e = .configLocked .opened ∨ e = .configLocked .closed

/-- A change with a fault in it is refused for that. -/
theorem refused_of_fault {o : Operation} {fault : SetupFault}
    (h : o.change? = some (.error fault)) : o.Refused (.error (.invalidConfig fault)) :=
  ⟨_, rfl, by rw [h]⟩

/-- What is left of a configuration operation that began once its sale had
opened: everything, or telling the refusal. -/
def AtRefusal (o : Operation) (p : Program o.Result) : Prop :=
  p = o.program ∨ ∃ result, p = .done result ∧ o.Refused result

/-- Under the lock the change is refused and the book stays. -/
theorem locked_of_hasOpened {o : Operation} (ho : o.change?.isSome) {b : Book} {now : Instant}
    (hopen : b.HasOpened now) {f : Book → Instant → Book}
    {k : Book → Instant → Program o.Result} (hp : o.program = .locked f k) :
    f b now = b ∧ ∃ result, k b now = .done result ∧ o.Refused result := by
  obtain ⟨fault, -, hprogram⟩ | ⟨c, told, hc, hprogram⟩ := program_cases ho
  · rw [hprogram] at hp
    contradiction
  · rw [hprogram] at hp
    obtain ⟨rfl, rfl⟩ := Program.locked.inj hp
    have hrefused : b.change c now = .error (.configLocked (b.state now)) :=
      Book.change_of_hasOpened hopen
    refine ⟨by simp only [hrefused], .error (.configLocked (b.state now)), ?_, _, rfl, ?_⟩
    · simp only [hrefused]
      rfl
    · simp only [hc]
      obtain hstate | hstate := Book.hasOpened_iff_state.1 hopen <;> simp [hstate]

theorem refused_of_done {o : Operation} (ho : o.change?.isSome) {result : o.Result}
    (hp : o.program = .done result) : o.Refused result := by
  obtain ⟨fault, hc, hprogram⟩ | ⟨c, told, -, hprogram⟩ := program_cases ho
  · rw [hprogram, Program.done.injEq] at hp
    exact hp ▸ refused_of_fault hc
  · rw [hprogram] at hp
    contradiction

theorem program_ne_call {o : Operation} (ho : o.change?.isSome) {c : Call}
    {k : c.Answer → Program o.Result} : o.program ≠ .call c k := by
  intro hp
  obtain ⟨fault, -, hprogram⟩ | ⟨x, told, -, hprogram⟩ := program_cases ho
  · rw [hprogram] at hp
    contradiction
  · rw [hprogram] at hp
    contradiction

/-- Alone it is refused too, and nothing happens. -/
theorem alone_of_hasOpened {o : Operation} (ho : o.change?.isSome) {b : Book} {now : Instant}
    (hopen : b.HasOpened now) (reply : (c : Call) → c.Answer) :
    o.Refused (o.program.alone reply now b).result ∧ (o.program.alone reply now b).book = b ∧
      (o.program.alone reply now b).effects = [] := by
  cases hp : o.program with
  | done result => exact ⟨refused_of_done ho hp, rfl, rfl⟩
  | locked f k =>
      obtain ⟨hf, result, hk, hrefused⟩ := locked_of_hasOpened ho hopen hp
      simp only [Program.alone, hf, hk, and_self, and_true]
      exact hrefused
  | call c k => exact absurd hp (program_ne_call ho)

end Operation

/-- Once the sale has opened, a change of the parameters has only its refusal left
to come. -/
theorem Step.session_atRefusal {s s' : System} {e : Event} (hs : Step Forward s e s')
    (hopen : s.book.HasOpened s.now) {i : Nat} {o : Operation} (ho : o.change?.isSome)
    {p : Program o.Result} (hi : s.sessions i = some ⟨o, p⟩) (hp : o.AtRefusal p)
    (he : e.isFinishOf i = false) : ∃ p', s'.sessions i = some ⟨o, p'⟩ ∧ o.AtRefusal p' := by
  obtain ⟨-, hsame⟩ | ⟨f, k, -, rfl, -, hsession⟩ | ⟨c, k, a, -, rfl, -, -⟩ :=
    hs.session_cases hi he
  · exact ⟨p, hsame, hp⟩
  · obtain hprogram | ⟨result, hdone, -⟩ := hp
    · obtain ⟨-, result, hk, hrefused⟩ :=
        Operation.locked_of_hasOpened ho hopen hprogram.symm
      exact ⟨_, hsession, .inr ⟨result, hk, hrefused⟩⟩
    · contradiction
  · obtain hprogram | ⟨result, hdone, -⟩ := hp
    · exact absurd hprogram.symm (Operation.program_ne_call ho)
    · contradiction

/-- The parameters of a sale that is reached under a forward clock. -/
theorem Run.advances {t : Instant} {es es' : List Event} {s s' : System}
    (h : Run Forward (.start t) es s) (h' : Run Forward s es' s') :
    s.book.Advances s.now s'.book s'.now := by
  obtain ⟨g, -, hg⟩ := h.tracked (Tracked.tracks_start t)
  obtain ⟨g', hrun, hg'⟩ := h'.tracked hg
  rw [← hg.1, ← hg.2.1, ← hg'.1, ← hg'.2.1]
  exact hrun.advances

/-- A change of the parameters that starts once the sale has opened has only its
refusal left until it returns. -/
theorem Run.session_atRefusal {t : Instant} {es es' : List Event} {s s' : System}
    (h : Run Forward (.start t) es s) (h' : Run Forward s es' s')
    (hopen : s.book.HasOpened s.now) {i : Nat} {o : Operation} (ho : o.change?.isSome)
    (hi : s.sessions i = some ⟨o, o.program⟩) (he : ∀ e ∈ es', e.isFinishOf i = false) :
    ∃ p, s'.sessions i = some ⟨o, p⟩ ∧ o.AtRefusal p := by
  induction h' with
  | refl => exact ⟨_, hi, .inl rfl⟩
  | step h₁ hs ih =>
      obtain ⟨p, hp, hrefusal⟩ := ih fun e hmem => he e (List.mem_append_left _ hmem)
      exact hs.session_atRefusal ((h.advances h₁).opened hopen).1 ho hp hrefusal
        (he _ (by simp))

/-- A configuration operation that is still to take the lock when the sale has
opened is refused whenever it ends. -/
theorem Run.refused_of_waiting {t : Instant} {es es₁ es₂ : List Event} {s s' : System}
    (h : Run Forward (.start t) es s) (hopen : s.book.HasOpened s.now) {i : Nat} {o : Operation}
    (ho : o.change?.isSome) (hi : s.sessions i = some ⟨o, o.program⟩) {result : o.Result}
    (h' : Run Forward s (es₁ ++ .finish i o result :: es₂) s')
    (he : ∀ e ∈ es₁, e.isFinishOf i = false) : o.Refused result := by
  obtain ⟨s₁, h₁, h'⟩ := h'.split
  obtain ⟨s₂, hfinish, -⟩ := h'.uncons
  obtain ⟨p, hp, hrefusal⟩ := h.session_atRefusal h₁ hopen ho hi he
  cases hfinish with
  | finish hdone =>
      rw [hp, Option.some.injEq, Session.mk.injEq, heq_eq_eq] at hdone
      obtain ⟨-, rfl⟩ := hdone
      obtain hprogram | ⟨result', hresult, hrefused⟩ := hrefusal
      · exact Operation.refused_of_done ho hprogram.symm
      · rw [Program.done.injEq] at hresult
        exact hresult ▸ hrefused

/-- So is one that begins later. -/
theorem Run.refused_of_begin {t : Instant} {es es₁ es₂ es₃ : List Event} {s s' : System}
    (h : Run Forward (.start t) es s) (hopen : s.book.HasOpened s.now) {i : Nat} {o : Operation}
    (ho : o.change?.isSome) {result : o.Result}
    (h' : Run Forward s (es₁ ++ .begin i o :: es₂ ++ .finish i o result :: es₃) s')
    (he : ∀ e ∈ es₂, e.isFinishOf i = false) : o.Refused result := by
  rw [List.append_assoc, List.cons_append] at h'
  obtain ⟨s₁, h₁, h'⟩ := h'.split
  obtain ⟨s₂, hbegin, h'⟩ := h'.uncons
  have hopen₂ : s₂.book.HasOpened s₂.now := ((h.advances (h₁.step hbegin)).opened hopen).1
  have hi : s₂.sessions i = some ⟨o, o.program⟩ := by
    cases hbegin with
    | begin o hidle => simp [System.withSession]
  exact ((h.append h₁).step hbegin).refused_of_waiting hopen₂ ho hi h' he

/-! ## the life of a sale -/

/-- What holds of a sale at two moments, `es` being what happened until the
first and `es'` what happened from there until the second. -/
structure Lifecycle (es : List Event) (s : System) (es' : List Event) (s' : System) : Prop where
  /-- The state never moves down. -/
  rank_le : s.state.rank ≤ s'.state.rank
  /-- Once the sale has opened its parameters, its limits and the shapes of its
  tiers stay. -/
  fixed : s.state = .opened ∨ s.state = .closed → s.book.Fixed s'.book
  /-- From then on every configuration operation is refused: one that has not
  taken the lock yet, and one that begins later. -/
  refused : s.state = .opened ∨ s.state = .closed →
    ∀ (i : Nat) (o : Operation) (result : o.Result), o.change?.isSome →
      ∀ es₁ es₂ es₃, (∀ e ∈ es₂, e.isFinishOf i = false) →
        (s.sessions i = some ⟨o, o.program⟩ ∧ es' = es₂ ++ .finish i o result :: es₃ ∨
          es' = es₁ ++ .begin i o :: es₂ ++ .finish i o result :: es₃) → o.Refused result
  /-- One that runs alone ends so and does nothing. -/
  refusedAlone : s.state = .opened ∨ s.state = .closed →
    ∀ (o : Operation) (reply : (c : Call) → c.Answer), o.change?.isSome →
      o.Refused (o.program.alone reply s'.now s'.book).result ∧
        (o.program.alone reply s'.now s'.book).book = s'.book ∧
        (o.program.alone reply s'.now s'.book).effects = []
  /-- Once the sale has closed no purchase is committed. -/
  sealed : s.state = .closed → s.book.Sealed s'.book
  /-- One caller at most is told that the sale is finalized. -/
  finalizedOnce : finalizations (es ++ es') ≤ 1
  /-- It is told so once the sale has closed, with what is left then and ever after. -/
  finalized : ∀ i unsold, .finish i .finalize (.ok unsold) ∈ es →
    s.state = .closed ∧ s.book.totalRemaining = unsold ∧
      s'.state = .closed ∧ s'.book.totalRemaining = unsold

/-- A sale is finalized once at most. -/
theorem Finalization.finalizations_le {es : List Event} {g : Tracked} (h : Finalization es g) :
    finalizations es ≤ 1 := by
  cases h with
  | pending others flags count | underway holder others flags count
  | untold holder others flag count => omega
  | told others flag count => exact Nat.le_of_eq count

/-- A sale that was finalized is closed, with the reported tokens unsold. -/
theorem Finalization.closed_of_mem {es : List Event} {g : Tracked} (h : Finalization es g)
    {i : Nat} {unsold : Tokens} (hmem : .finish i .finalize (.ok unsold) ∈ es) :
    g.book.state g.now = .closed ∧ g.book.totalRemaining = unsold := by
  have hcount : finalizations es ≠ 0 := fun hzero => by
    have hnone := List.countP_eq_zero.1 hzero _ hmem
    simp [Event.isFinalized] at hnone
  cases h with
  | pending others flags count | underway holder others flags count
  | untold holder others flag count => exact absurd count hcount
  | told others flag count told closed => rw [told i unsold hmem]; exact closed

/-- **The life of a sale.**  Whatever its callers do and its services answer,
as long as the clock does not go backwards. -/
theorem lifecycle_of_run {t : Instant} {es es' : List Event} {s s' : System}
    (h : Run Forward (.start t) es s) (h' : Run Forward s es' s') : Lifecycle es s es' s' := by
  have hadv : s.book.Advances s.now s'.book s'.now := h.advances h'
  obtain ⟨g, hfinal, hbook, hnow, -⟩ := h.finalization
  obtain ⟨g', hfinal', -⟩ := (h.append h').finalization
  refine ⟨hadv.rank_le, fun ho => ?_, fun ho i o result hc es₁ es₂ es₃ he hes => ?_,
    fun ho o reply hc => ?_, fun hc => (hadv.closed hc).2, hfinal'.finalizations_le,
    fun i unsold hmem => ?_⟩
  · exact (hadv.opened (Book.hasOpened_iff_state.2 ho)).2
  · have hopen : s.book.HasOpened s.now := Book.hasOpened_iff_state.2 ho
    obtain ⟨hi, rfl⟩ | rfl := hes
    · exact h.refused_of_waiting hopen hc hi h' he
    · exact h.refused_of_begin hopen hc h' he
  · have hopen := (hadv.opened (Book.hasOpened_iff_state.2 ho)).1
    exact Operation.alone_of_hasOpened hc hopen reply
  · have hclosed := hfinal.closed_of_mem hmem
    rw [hbook, hnow] at hclosed
    exact ⟨hclosed.1, hclosed.2, Finalization.closed_of_advances hadv hclosed⟩

/-- A sale that is configured, sells some tokens, closes and is finalized; a
change of its times comes too late. -/
theorem lifecycle_of_finalized_sale : ∃ es s es' s',
    .finish 0 .finalize (.ok ⟨70, by decide⟩) ∈ es ∧
    .begin 0 (.setTimes Sample.open Sample.late) ∈ es' ∧ Lifecycle es s es' s' := by
  obtain ⟨es₁, h₁⟩ := Sample.run_sold Sample.reply
  have h₂ := h₁.step (.tick (show Sample.open ≤ Sample.late by decide))
  obtain ⟨es₃, h₃⟩ := Run.alone Forward Sample.reply 0 .finalize (s := .idle _ Sample.late) rfl
  obtain ⟨es₄, h₄⟩ := Run.alone Forward Sample.reply 0
    (.setTimes Sample.open Sample.late) (s := .idle _ Sample.late) rfl
  refine ⟨_, _, _, _, ?_, ?_, lifecycle_of_run (h₂.append h₃) h₄⟩
  · refine List.mem_append_right _ (List.mem_append_right (.begin 0 .finalize :: es₃) ?_)
    exact List.mem_singleton.2 (by rfl)
  · simp

end TokenSale
