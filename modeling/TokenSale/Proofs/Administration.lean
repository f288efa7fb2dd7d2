import TokenSale.Proofs.AllOrNothing
import TokenSale.Proofs.GreedyWalk
import TokenSale.Proofs.Warrant

/-!
# TokenSale.Proofs.Administration

What administration makes of a sale.  Nothing gets into the book that has not
passed its checks, and an operation does all that it says in one step, or
nothing.

* `Operation.Makes` — what every operation makes of the book, guards included;
* `Book.Consistent`, `Run.consistent` — the book is consistent in every run;
* `Program.Administers` — one step does it, and its version is announced;
* `AdminCourse` — how far the operation of a caller has come in a run;
* `Run.administered` — how it ends.
-/

namespace TokenSale

/-! ## what administration makes of the book -/

/-- A configuration is accepted exactly if no fault is found in it. -/
theorem SaleConfig.validate_eq_ok_iff {c : SaleConfig} :
    c.validate = .ok () ↔ c.fault? = none := by
  unfold SaleConfig.validate
  cases c.fault? <;> simp

/-- The book with other parameters and limits, under the next version. -/
def Book.revise (b : Book) (terms : Terms) (caps : CapTracker) : Book :=
  { b with terms := some terms, caps, version := b.version + 1 }

namespace Operation

/-- The operations of administration. -/
def IsAdministrative : Operation → Prop
  | purchase _ | preview _ | retrySettlement _ | finalize => False
  | _ => True

/-- An administrative operation changes the parameters or sets the pause flag. -/
theorem IsAdministrative.cases {o : Operation} (h : o.IsAdministrative) :
    o.change?.isSome ∨ ∃ paused, o = .setPaused paused := by
  cases o with
  | configure config specs =>
      refine .inl ?_
      simp only [change?]
      split <;> rfl
  | setPaused paused => exact .inr ⟨paused, rfl⟩
  | purchase | preview | retrySettlement | finalize => exact h.elim
  | _ => exact .inl rfl

/-- What an operation of administration makes of the book: what it names is
replaced by its arguments, which have passed their checks, under the next version. -/
def Makes : Operation → Book → Book → Prop
  | configure config specs, b, b' => config.validate = .ok () ∧
      ∃ tiers, TierLedger.ofSpecs specs = .ok tiers ∧
        b' = b.revise ⟨config, tiers⟩ { b.caps with
          nonAccreditedLimit := config.nonAccreditedLimit }
  | setTiers specs, b, b' => ∃ t tiers, b.terms = some t ∧ TierLedger.ofSpecs specs = .ok tiers ∧
      b' = b.revise { t with tiers } b.caps
  | setLimits nonAccreditedLimit minimumInvestment, b, b' => ∃ t, b.terms = some t ∧
      b' = b.revise { t with config := { t.config with nonAccreditedLimit, minimumInvestment } }
        { b.caps with nonAccreditedLimit }
  | setAcceptedCurrencies acceptedCurrencies discountCurrency, b, b' => ∃ t config,
      b.terms = some t ∧ config = { t.config with acceptedCurrencies, discountCurrency } ∧
        config.validate = .ok () ∧ b' = b.revise { t with config } b.caps
  | setTimes startTime endTime, b, b' => ∃ t config,
      b.terms = some t ∧ config = { t.config with startTime, endTime } ∧
        config.validate = .ok () ∧ b' = b.revise { t with config } b.caps
  | setLimitOverride investor limit, b, b' => ∃ t, b.terms = some t ∧
      b' = b.revise t { b.caps with overrides := b.caps.overrides.insert investor limit }
  | setAllowBeneficialInvestments allowBeneficialInvestments, b, b' => ∃ t, b.terms = some t ∧
      b' = b.revise { t with config := { t.config with allowBeneficialInvestments } } b.caps
  | setPaused paused, b, b' => b.terms.isSome ∧ b.paused = !paused ∧
      b' = { b with paused, version := b.version + 1 }
  | _, _, _ => False

variable {o : Operation} {b b' : Book} {now : Instant} {version : Nat}

/-- Every change does what its operation says. -/
theorem makes_of_change {c : Book.Change} (ho : o.change? = some (.ok c))
    (h : b.change c now = .ok (version, b')) : o.Makes b b' ∧ version = b'.version := by
  obtain ⟨-, b₁, happly, rfl, rfl⟩ := Book.applied_of_change h
  refine ⟨?_, rfl⟩
  cases o with
  | configure config specs =>
      simp only [change?] at ho
      cases hfault : config.fault? with
      | some fault => simp [hfault] at ho
      | none =>
          rw [hfault] at ho
          obtain ⟨tiers, hs, rfl⟩ := ok_of_mapError_map (Option.some.inj ho)
          cases happly
          exact ⟨SaleConfig.validate_eq_ok_iff.2 hfault, tiers, hs, rfl⟩
  | setTiers specs =>
      obtain ⟨tiers, hs, rfl⟩ := ok_of_mapError_map (Option.some.inj ho)
      obtain ⟨t, ht, happly⟩ := Book.withTerms_ok happly
      cases happly
      exact ⟨t, tiers, ht, hs, rfl⟩
  | setLimits limit minimum =>
      cases ho
      obtain ⟨t, ht, happly⟩ := Book.withTerms_ok happly
      cases happly
      exact ⟨t, ht, rfl⟩
  | setAcceptedCurrencies accepted discount =>
      cases ho
      obtain ⟨t, ht, happly⟩ := Book.withTerms_ok happly
      obtain ⟨hfault, rfl⟩ := Book.withConfig_ok happly
      exact ⟨t, _, ht, rfl, SaleConfig.validate_eq_ok_iff.2 hfault, rfl⟩
  | setTimes startTime endTime =>
      cases ho
      obtain ⟨t, ht, happly⟩ := Book.withTerms_ok happly
      obtain ⟨hfault, rfl⟩ := Book.withConfig_ok happly
      exact ⟨t, _, ht, rfl, SaleConfig.validate_eq_ok_iff.2 hfault, rfl⟩
  | setLimitOverride investor limit =>
      cases ho
      obtain ⟨t, ht, happly⟩ := Book.withTerms_ok happly
      cases happly
      refine ⟨t, ht, ?_⟩
      rw [Book.revise, ← ht]
      rfl
  | setAllowBeneficialInvestments allow =>
      cases ho
      obtain ⟨t, ht, happly⟩ := Book.withTerms_ok happly
      cases happly
      exact ⟨t, ht, rfl⟩
  | setPaused | purchase | preview | retrySettlement | finalize => cases ho

/-- The flag is turned over. -/
theorem makes_of_setPaused {paused : Bool} (h : b.setPaused paused = .ok (some version, b')) :
    (setPaused paused).Makes b b' ∧ version = b'.version := by
  obtain ⟨hv, -⟩ | ⟨hv, rfl, hterms, hflag⟩ := Book.setPaused_cases h
  · contradiction
  · exact ⟨⟨hterms, hflag, rfl⟩, Option.some.inj hv⟩

/-- Whatever is made, it takes one version. -/
theorem Makes.version_eq (h : o.Makes b b') : b'.version = b.version + 1 := by
  cases o with
  | configure =>
      obtain ⟨-, tiers, -, rfl⟩ := h
      rfl
  | setTiers =>
      obtain ⟨t, tiers, -, -, rfl⟩ := h
      rfl
  | setAcceptedCurrencies | setTimes =>
      obtain ⟨t, config, -, -, -, rfl⟩ := h
      rfl
  | setLimits | setLimitOverride | setAllowBeneficialInvestments =>
      obtain ⟨t, -, rfl⟩ := h
      rfl
  | setPaused =>
      obtain ⟨-, -, rfl⟩ := h
      rfl
  | purchase | preview | retrySettlement | finalize => exact h.elim

end Operation

/-! ## consistency -/

/-- The parameters and the shapes of the tiers have passed their checks, and
the limit of non-accredited investors is the same in both places. -/
structure Terms.Consistent (t : Terms) (caps : CapTracker) : Prop where
  config : t.config.validate = .ok ()
  tiers : ∃ l, TierLedger.ofSpecs t.tiers.specs = .ok l
  limit : caps.nonAccreditedLimit = t.config.nonAccreditedLimit

/-- The parameters are consistent, if there are any. -/
def Book.Consistent (b : Book) : Prop := ∀ t, b.terms = some t → t.Consistent b.caps

namespace Book

variable {b b' : Book}

/-- A change of the parameters keeps a book consistent. -/
theorem Consistent.of_makes {o : Operation} (h : b.Consistent) (hm : o.Makes b b') :
    b'.Consistent := by
  intro u hu
  cases o with
  | configure config specs =>
      obtain ⟨hvalid, tiers, hs, rfl⟩ := hm
      cases hu
      exact ⟨hvalid, ⟨tiers, by rwa [TierLedger.specs_of_ofSpecs hs]⟩, rfl⟩
  | setTiers specs =>
      obtain ⟨t, tiers, ht, hs, rfl⟩ := hm
      cases hu
      exact ⟨(h t ht).config, ⟨tiers, by rwa [TierLedger.specs_of_ofSpecs hs]⟩, (h t ht).limit⟩
  | setLimits limit minimum =>
      -- the checks of the parameters do not look at the limits
      obtain ⟨t, ht, rfl⟩ := hm
      cases hu
      exact ⟨(h t ht).config, (h t ht).tiers, rfl⟩
  | setAcceptedCurrencies | setTimes =>
      obtain ⟨t, config, ht, rfl, hvalid, rfl⟩ := hm
      cases hu
      exact ⟨hvalid, (h t ht).tiers, (h t ht).limit⟩
  | setLimitOverride investor limit =>
      obtain ⟨t, ht, rfl⟩ := hm
      cases hu
      exact ⟨(h u ht).config, (h u ht).tiers, (h u ht).limit⟩
  | setAllowBeneficialInvestments allow =>
      obtain ⟨t, ht, rfl⟩ := hm
      cases hu
      exact ⟨(h t ht).config, (h t ht).tiers, (h t ht).limit⟩
  | setPaused paused =>
      obtain ⟨-, -, rfl⟩ := hm
      exact h u hu
  | purchase | preview | retrySettlement | finalize => exact hm.elim

theorem Consistent.of_fixed (h : b.Consistent) (hf : b.Fixed b') : b'.Consistent := by
  intro u hu
  have hconfig : b.terms.map Terms.config = some u.config := by
    simpa [config?, hu] using hf.config.symm
  have hspecs := hf.specs
  obtain ⟨t, ht, heq⟩ := Option.map_eq_some_iff.1 hconfig
  simp only [hu, ht, Option.map_some, Option.some.injEq] at hspecs
  have ht := h t ht
  exact ⟨heq ▸ ht.config, hspecs ▸ ht.tiers, by rw [hf.limit, ht.limit, heq]⟩

end Book

/-- Whatever an operation does under the lock, a consistent book stays consistent.
-/
theorem LockStep.consistent {o : Operation} {b b' : Book} {now : Instant} {h h' : Holding}
    (hs : LockStep o b now h b' h') (hb : b.Consistent) : b'.Consistent := by
  obtain hsealed | ⟨c, version, ho, hc⟩ | ⟨r, checked, record, -, hc⟩ := hs.book_cases
  · exact hb.of_fixed hsealed.fixed
  · exact hb.of_makes (Operation.makes_of_change ho hc).1
  · exact hb.of_fixed (Book.fixed_of_commitPurchase hc)

/-- **The parameters of a sale are always consistent.** -/
theorem Run.consistent {clock : Instant → Instant → Prop} {t : Instant} {es : List Event}
    {s : System} (h : Run clock (.start t) es s) : s.book.Consistent := by
  obtain ⟨g, hg, hbook, -⟩ := h.invariant (P := fun _ g => g.book.Consistent)
    (fun u hu => by cases hu) fun hg hs => by
      cases hs with
      | lock hs => exact hs.consistent hg
      | tick | begin | answer | finish => exact hg
  rwa [← hbook]

/-! ## one step does it -/

/-- The version that an event tells. -/
def SaleEvent.version? : SaleEvent → Option Nat
  | configChanged _ version | paused version | unpaused version => some version
  | _ => none

/-- The version that is announced here, whether the sink takes the event or not. -/
def Event.announced? (e : Event) : Option Nat :=
  match e.requested? with
  | some (.emit event) => event.version?
  | _ => none

namespace Program

variable {α β : Type} {o : Operation}

/-- At most a version is left to announce, then the program ends successfully. -/
def Announces (version : Nat) : Program (Except SaleError α) → Prop
  | done result => ∃ told, result = .ok told
  | locked .. => False
  | call c k => (∃ event, c = .effect (.emit event) ∧ event.version? = some version) ∧
      ∀ a, ∃ told, k a = .done (.ok told)

/-- One step does what the operation says, and its version is announced; or it
finds the sale paused, or not, as it was to be; or the end is an error.  In the
last two cases the book stays and nobody is told anything. -/
def Administers (o : Operation) : Program o.Result → Prop
  | done result => ∃ e, result = .error e
  | locked f k => ∀ b now,
      (f b now = b ∧ ∃ e, k b now = .done (.error e)) ∨
      (f b now = b ∧ o = .setPaused b.paused ∧ ∃ told, k b now = .done (.ok told)) ∨
      (o.Makes b (f b now) ∧ (k b now).Announces (f b now).version)
  | call .. => False

theorem announces_announce {event : SaleEvent} {version : Nat} {told : α}
    (h : event.version? = some version) :
    (Sale.announce event >>= fun _ => pure (.ok told) : Program (Except SaleError α)).Announces
      version :=
  ⟨⟨event, rfl, h⟩, fun _ => ⟨told, rfl⟩⟩

/-- Alone it leaves the book as it is and announces nothing else. -/
theorem Announces.alone {p : Program (Except SaleError α)} {version : Nat}
    (hp : p.Announces version) (reply : (c : Call) → c.Answer) (now : Instant) (b : Book) :
    (∃ told, (p.alone reply now b).result = .ok told) ∧ (p.alone reply now b).book = b ∧
      ∀ effect ∈ (p.alone reply now b).effects, ∃ event,
        effect = .emit event ∧ event.version? = some version := by
  cases p with
  | done result =>
      obtain ⟨told, rfl⟩ := hp
      exact ⟨⟨told, rfl⟩, rfl, by simp [Program.alone]⟩
  | locked f k => exact hp.elim
  | call c k =>
      obtain ⟨⟨event, rfl, hversion⟩, hdone⟩ := hp
      obtain ⟨told, hdone⟩ := hdone (reply _)
      rw [Program.alone, hdone]
      refine ⟨⟨told, rfl⟩, rfl, fun effect heffect => ⟨event, ?_, hversion⟩⟩
      simp only [Program.alone, List.append_nil, Call.landed] at heffect
      split at heffect <;> simp_all

/-- A step of administration that may be refused. -/
theorem administers_attempt {step : Book → Instant → Except SaleError (β × Book)}
    {k : Except SaleError β → Program o.Result}
    (hok : ∀ b now x b', step b now = .ok (x, b') →
      (b' = b ∧ o = .setPaused b.paused ∧ ∃ told, k (.ok x) = .done (.ok told)) ∨
        (o.Makes b b' ∧ (k (.ok x)).Announces b'.version))
    (herr : ∀ e, k (.error e) = .done (.error e)) : (attempt step >>= k).Administers o := by
  intro b now
  cases hs : step b now with
  | error e =>
      refine .inl ⟨by simp only [hs], e, ?_⟩
      simp only [hs]
      exact herr e
  | ok x =>
      obtain ⟨x, b'⟩ := x
      refine .inr ?_
      simp only [hs]
      exact hok b now x b' hs

/-- **Every operation of administration does what it says, or nothing.** -/
theorem administers_program (ho : o.IsAdministrative) : o.program.Administers o := by
  obtain hchange | ⟨paused, rfl⟩ := ho.cases
  · obtain ⟨fault, -, hprogram⟩ | ⟨c, told, hc, hprogram⟩ := Operation.program_cases hchange
    · rw [hprogram]
      exact ⟨_, rfl⟩
    · rw [hprogram]
      refine administers_attempt (fun b now version b' h => .inr ?_) fun e => rfl
      obtain ⟨hmakes, hversion⟩ := Operation.makes_of_change hc h
      exact ⟨hmakes, hversion ▸ announces_announce rfl⟩
  · refine administers_attempt (fun b now version b' h => ?_) fun e => rfl
    cases version with
    | none =>
        obtain ⟨-, hsame, rfl⟩ | ⟨hv, -⟩ := Book.setPaused_cases h
        · exact .inl ⟨hsame, rfl, (), rfl⟩
        · contradiction
    | some version =>
        obtain ⟨hmakes, hversion⟩ := Operation.makes_of_setPaused h
        refine .inr ⟨hmakes, hversion ▸ announces_announce ?_⟩
        cases paused <;> rfl

end Program

/-- What an operation of administration that runs alone comes to: an error and
nothing else; or success, and what the operation says has been done and
nothing but its version was announced, unless the sale was so already. -/
def Operation.EndsAlone (o : Operation) (b : Book) (x : Program.Outcome o.Result) : Prop :=
  match x.result with
  | .error _ => x.book = b ∧ x.effects = []
  | .ok _ => (o = .setPaused b.paused ∧ x.book = b ∧ x.effects = []) ∨
      (o.Makes b x.book ∧ ∀ effect ∈ x.effects, ∃ event,
        effect = .emit event ∧ event.version? = some x.book.version)

/-- **An administrative operation by itself is refused without a trace, or makes its
change and tells it.** -/
theorem Operation.endsAlone {o : Operation} (ho : o.IsAdministrative)
    (reply : (c : Call) → c.Answer) (now : Instant) (b : Book) :
    o.EndsAlone b (o.program.alone reply now b) := by
  have hp := Program.administers_program ho
  generalize o.program = p at hp
  cases p with
  | done result =>
      obtain ⟨e, rfl⟩ := hp
      exact ⟨rfl, rfl⟩
  | call c k => exact hp.elim
  | locked f k =>
      simp only [Program.alone]
      obtain ⟨hf, e, hk⟩ | ⟨hf, hpaused, told, hk⟩ | ⟨hmakes, hk⟩ := hp b now
      · rw [hf, hk]
        exact ⟨rfl, rfl⟩
      · rw [hf, hk]
        exact .inl ⟨hpaused, rfl, rfl⟩
      · obtain ⟨⟨told, hresult⟩, hbook, heffects⟩ := hk.alone reply now (f b now)
        simp only [EndsAlone, hresult, hbook]
        exact .inr ⟨hmakes, heffects⟩

/-! ## the course of an operation -/

/-- The caller announces a version and does nothing else. -/
def OnlyAnnounces (i version : Nat) (s : System) (e : Event) (s' : System) : Prop :=
  e.caller? = some i → s'.book = s.book ∧ e.announced? = some version

/-- The operation of a caller has done what it says: in one step of its own,
before which it has changed nothing and after which it announces the version. -/
def Made (clock : Instant → Instant → Prop) (o : Operation) (i version : Nat) (s : System)
    (es : List Event) (s' : System) : Prop :=
  ∃ es₁ es₂ s₁ s₂, es = es₁ ++ .lock i :: es₂ ∧ Run.Each clock (LeavesAlone i) s es₁ s₁ ∧
    Step clock s₁ (.lock i) s₂ ∧ o.Makes s₁.book s₂.book ∧ s₂.book.version = version ∧
    Run.Each clock (OnlyAnnounces i version) s₂ es₂ s'

/-- The operation of a caller has found the sale paused, or not, as it was to
be; so it has changed nothing. -/
structure FoundSo (clock : Instant → Instant → Prop) (o : Operation) (i : Nat) (s : System)
    (es : List Event) (s' : System) : Prop where
  own : Run.Each clock (LeavesAlone i) s es s'
  found : ∃ es₁ es₂ s₁, es = es₁ ++ .lock i :: es₂ ∧ Run clock s es₁ s₁ ∧
    o = .setPaused s₁.book.paused

variable {clock : Instant → Instant → Prop} {t : Instant} {s s' s'' : System} {e : Event}
  {es es' : List Event} {i : Nat} {o : Operation}

/-- How far an operation of administration has come. -/
inductive AdminCourse (clock : Instant → Instant → Prop) (o : Operation) (i : Nat) (s : System)
    (es : List Event) (s' : System) : Prop
  | undone {p : Program o.Result} (session : s'.sessions i = some ⟨o, p⟩)
      (rest : p.Administers o) (own : Run.Each clock (LeavesAlone i) s es s')
  | same {told : o.Output} (session : s'.sessions i = some ⟨o, .done (.ok told)⟩)
      (own : FoundSo clock o i s es s')
  | made {p : Program o.Result} {version : Nat} (session : s'.sessions i = some ⟨o, p⟩)
      (rest : p.Announces version) (own : Made clock o i version s es s')

/-- A change stays made while its caller does no more than announce it. -/
theorem Made.step {version : Nat} (h : Made clock o i version s es s') (hs : Step clock s' e s'')
    (hp : OnlyAnnounces i version s' e s'') : Made clock o i version s (es ++ [e]) s'' := by
  obtain ⟨es₁, es₂, s₁, s₂, rfl, hbefore, hstep, hmakes, hversion, hafter⟩ := h
  exact ⟨es₁, es₂ ++ [e], s₁, s₂, by simp, hbefore, hstep, hmakes, hversion, hafter.step hs hp⟩

/-- What an operation found is not altered by the steps of others. -/
theorem FoundSo.step (h : FoundSo clock o i s es s') (hs : Step clock s' e s'')
    (hother : e.caller? ≠ some i) : FoundSo clock o i s (es ++ [e]) s'' := by
  obtain ⟨hown, es₁, es₂, s₁, rfl, hrun, hfound⟩ := h
  exact ⟨hown.step hs fun h => absurd h hother, es₁, es₂ ++ [e], s₁, by simp, hrun, hfound⟩

/-- One occurrence takes the operation on. -/
theorem AdminCourse.step (h : AdminCourse clock o i s es s') (hs : Step clock s' e s'')
    (he : e.isFinishOf i = false) : AdminCourse clock o i s (es ++ [e]) s'' := by
  cases h with
  | @undone p session rest own =>
      obtain ⟨hother, hsession⟩ | ⟨f, k, rfl, rfl, hbook, hsession⟩ |
        ⟨c, k, a, rfl, rfl, hbook, hsession⟩ := hs.session_cases session he
      · exact .undone hsession rest (own.step hs fun hown => absurd hown hother)
      · obtain ⟨hkeep, e, hk⟩ | ⟨hkeep, hfound, told, hk⟩ | ⟨hmakes, hk⟩ := rest s'.book s'.now
        · have hrest : (k s'.book s'.now).Administers o := hk ▸ ⟨e, rfl⟩
          exact .undone hsession hrest (own.step hs fun _ => ⟨hbook.trans hkeep, rfl⟩)
        · exact .same (hk ▸ hsession) ⟨own.step hs fun _ => ⟨hbook.trans hkeep, rfl⟩,
            es, [], s', rfl, own.run, hfound⟩
        · rw [← hbook] at hmakes hk
          exact .made hsession hk ⟨es, [], s', s'', rfl, own, hs, hmakes, rfl, .refl⟩
      · exact rest.elim
  | same session own =>
      obtain ⟨hother, hsession⟩ | ⟨f, k, -, hp, -⟩ | ⟨c, k, a, -, hp, -⟩ :=
        hs.session_cases session he
      · exact .same hsession (own.step hs hother)
      · contradiction
      · contradiction
  | @made p version session rest own =>
      obtain ⟨hother, hsession⟩ | ⟨f, k, rfl, rfl, hbook, hsession⟩ |
        ⟨c, k, a, rfl, rfl, hbook, hsession⟩ := hs.session_cases session he
      · exact .made hsession rest (own.step hs fun hown => absurd hown hother)
      · exact rest.elim
      · obtain ⟨⟨event, rfl, hevent⟩, hdone⟩ := rest
        obtain ⟨told, ha⟩ := hdone a
        have hrest : (k a).Announces version := ha ▸ ⟨told, rfl⟩
        exact .made hsession hrest (own.step hs fun _ => ⟨hbook, hevent⟩)

/-- Every operation of administration under way has its course. -/
theorem Run.adminCourse (h : Run clock s (.begin i o :: es) s') (ho : o.IsAdministrative)
    (he : ∀ e ∈ es, e.isFinishOf i = false) : AdminCourse clock o i s (.begin i o :: es) s' := by
  induction es using List.reverseRecOn generalizing s' with
  | nil =>
      obtain ⟨s₁, hbegin, hrefl⟩ := h.uncons
      obtain rfl := hrefl.eq_of_nil
      have hquiet : LeavesAlone i s (.begin i o) s' :=
        fun _ => ⟨hbegin.book_of_ne_lock (by simp), rfl⟩
      have hsession : s'.sessions i = some ⟨o, o.program⟩ := by
        cases hbegin with
        | begin o hidle => simp [System.withSession]
      exact .undone hsession (Program.administers_program ho) (.step .refl hbegin hquiet)
  | append_singleton es e ih =>
      rw [← List.cons_append] at h
      obtain ⟨s₁, h₁, hs⟩ := h.last
      exact (ih h₁ fun e hmem => he e (List.mem_append_left _ hmem)).step hs (he e (by simp))

/-- How an operation of administration has ended: with an error, and its caller
has changed nothing; or successfully, and what it says is done. -/
def Administered (clock : Instant → Instant → Prop) (o : Operation) (i : Nat) (s : System)
    (es : List Event) (s' : System) : o.Result → Prop
  | .error _ => Run.Each clock (LeavesAlone i) s es s'
  | .ok _ => FoundSo clock o i s es s' ∨ ∃ version, Made clock o i version s es s'

/-- **An operation of administration does all that it says in one step, or
nothing**, whatever other callers do meanwhile. -/
theorem Run.administered {result : o.Result}
    (h : Run clock (.start t) (es ++ .finish i o result :: es') s) (ho : o.IsAdministrative) :
    ∃ before during s₀ s₁, es = before ++ .begin i o :: during ∧
      (∀ e ∈ during, e.isFinishOf i = false) ∧ Run clock (.start t) before s₀ ∧
      Administered clock o i s₀ (.begin i o :: during) s₁ result := by
  obtain ⟨s₁, h₁, h₂⟩ := h.split
  obtain ⟨s₂, hs, -⟩ := h₂.uncons
  cases hs with
  | finish hi =>
      obtain ⟨before, during, s', rfl, hduring, hbefore, -, hrun⟩ := h₁.session_begun hi
      obtain ⟨s₀, h₀, hbegin⟩ := hbefore.last
      refine ⟨before, during, s₀, s₁, rfl, hduring, h₀, ?_⟩
      cases (hrun.cons hbegin).adminCourse ho hduring with
      | undone session rest own =>
          rw [hi, Option.some.injEq, Session.mk.injEq, heq_eq_eq] at session
          obtain ⟨-, rfl⟩ := session
          obtain ⟨e, rfl⟩ := rest
          exact own
      | same session own =>
          rw [hi, Option.some.injEq, Session.mk.injEq, heq_eq_eq, Program.done.injEq] at session
          obtain ⟨-, rfl⟩ := session
          exact .inl own
      | made session rest own =>
          rw [hi, Option.some.injEq, Session.mk.injEq, heq_eq_eq] at session
          obtain ⟨-, rfl⟩ := session
          obtain ⟨told, rfl⟩ := rest
          exact .inr ⟨_, own⟩

end TokenSale
