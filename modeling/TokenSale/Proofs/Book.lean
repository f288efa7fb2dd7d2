import TokenSale.Sale.Book

/-!
# TokenSale.Proofs.Book

What each step on the book does when it succeeds, guards and all.  Later
proofs take a step apart by these and never open it.

* `change_ok`, `applyChange_ok` — a change of the parameters;
* `plan_ok`, `commitPurchase_ok` — a purchase;
* `beginSettlement_started`, `beginFinalize_ok` — the start of work outside the book.
-/

namespace TokenSale

namespace Book

variable {b b' : Book} {now : Instant}

/-! ## the state -/

/-- The sale has opened: its parameters are fixed. -/
def HasOpened (b : Book) (now : Instant) : Prop :=
  ∃ t, b.terms = some t ∧ t.config.startTime ≤ now

/-- With parameters the state follows from the configuration, the time and the
tiers. -/
theorem state_eq_of_terms {t : Terms} (h : b.terms = some t) :
    b.state now = .derive (some t.config) now t.tiers.isSoldOut := by
  simp [state, config?, isSoldOut, h]

theorem state_eq_of_none (h : b.terms = none) : b.state now = .unconfigured := by
  simp [state, config?, h, SaleState.derive]

/-- Parameters may be changed exactly before the start. -/
theorem acceptsConfigChanges_derive (c : SaleConfig) (now : Instant) (soldOut : Bool) :
    (SaleState.derive (some c) now soldOut).acceptsConfigChanges = decide (now < c.startTime) := by
  unfold SaleState.derive
  by_cases hs : now < c.startTime
  · simp [hs, SaleState.acceptsConfigChanges]
  · by_cases he : c.endTime ≤ now ∨ soldOut = true <;>
      simp [hs, he, SaleState.acceptsConfigChanges]

/-- A sale has opened once its parameters are locked. -/
theorem hasOpened_iff : b.HasOpened now ↔ (b.state now).acceptsConfigChanges = false := by
  cases ht : b.terms with
  | none => simp [HasOpened, ht, state_eq_of_none ht, SaleState.acceptsConfigChanges]
  | some t =>
      rw [state_eq_of_terms ht, acceptsConfigChanges_derive]
      simp [HasOpened, ht, Instant.not_lt]

/-- A sale that has opened is open or closed. -/
theorem hasOpened_iff_state :
    b.HasOpened now ↔ b.state now = .opened ∨ b.state now = .closed := by
  rw [hasOpened_iff]
  cases b.state now <;> simp [SaleState.acceptsConfigChanges]

/-- A sale is closed once it has started and its time is over or nothing is left. -/
theorem state_eq_closed_iff :
    b.state now = .closed ↔ ∃ t, b.terms = some t ∧ t.config.startTime ≤ now ∧
      (t.config.endTime ≤ now ∨ t.tiers.isSoldOut = true) := by
  cases ht : b.terms with
  | none => simp [state_eq_of_none ht]
  | some t =>
      rw [state_eq_of_terms ht, SaleState.derive]
      simp only [Option.some.injEq, exists_eq_left', ← Instant.not_lt (a := now)]
      by_cases hs : now < t.config.startTime
      · simp [hs]
      · by_cases he : ¬ now < t.config.endTime ∨ t.tiers.isSoldOut = true <;> simp [hs, he]

/-! ## administration -/

/-- A change of terms succeeds only where there are terms. -/
theorem withTerms_ok {f : Terms → Except SaleError Book} (h : b.withTerms f = .ok b') :
    ∃ t, b.terms = some t ∧ f t = .ok b' := by
  unfold withTerms at h
  cases ht : b.terms with
  | none => simp only [ht] at h; contradiction
  | some t => simp only [ht] at h; exact ⟨t, rfl, h⟩

theorem withConfig_ok {t : Terms} {c : SaleConfig} (h : b.withConfig t c = .ok b') :
    c.fault? = none ∧ b' = { b with terms := some { t with config := c } } := by
  unfold withConfig at h
  cases hf : c.fault? with
  | some fault => simp only [hf] at h; contradiction
  | none => simp only [hf, Except.ok.injEq] at h; exact ⟨rfl, h.symm⟩

/-- The tiers that a change brings with it. -/
def Change.ledger? : Change → Option TierLedger
  | configure _ ledger | tiers ledger => some ledger
  | _ => none

/-- A change leaves parameters and touches nothing but them and the limits; the
tiers stay unless the change brings others. -/
theorem applyChange_ok {c : Change} (h : b.applyChange c = .ok b') :
    ∃ t limit overrides, b' = { b with
        terms := some t
        caps := { b.caps with nonAccreditedLimit := limit, overrides } } ∧
      match c.ledger? with
      | some tiers => t.tiers = tiers
      | none => ∃ t₀, b.terms = some t₀ ∧ t.tiers = t₀.tiers := by
  cases c with
  | configure config tiers =>
      simp only [applyChange, Except.ok.injEq] at h
      exact ⟨_, _, _, h.symm, rfl⟩
  | tiers tiers =>
      obtain ⟨t, -, h⟩ := withTerms_ok h
      simp only [Except.ok.injEq] at h
      exact ⟨_, _, _, h.symm, rfl⟩
  | limits limit minimum =>
      obtain ⟨t, ht, h⟩ := withTerms_ok h
      simp only [Except.ok.injEq] at h
      exact ⟨_, _, _, h.symm, t, ht, rfl⟩
  | acceptedCurrencies accepted discount =>
      obtain ⟨t, ht, h⟩ := withTerms_ok h
      exact ⟨_, _, _, (withConfig_ok h).2, t, ht, rfl⟩
  | times startTime endTime =>
      obtain ⟨t, ht, h⟩ := withTerms_ok h
      exact ⟨_, _, _, (withConfig_ok h).2, t, ht, rfl⟩
  | limitOverride investor limit =>
      obtain ⟨t, ht, h⟩ := withTerms_ok h
      simp only [Except.ok.injEq] at h
      refine ⟨t, b.caps.nonAccreditedLimit, b.caps.overrides.insert investor limit, ?_, t, ht, rfl⟩
      rw [← h, ← ht]
      rfl
  | allowBeneficialInvestments allow =>
      obtain ⟨t, ht, h⟩ := withTerms_ok h
      simp only [Except.ok.injEq] at h
      exact ⟨_, _, _, h.symm, t, ht, rfl⟩

/-- A change that is accepted is applied, and then it is numbered. -/
theorem applied_of_change {c : Change} {version : Nat} (h : b.change c now = .ok (version, b')) :
    (b.state now).acceptsConfigChanges = true ∧ ∃ b₁, b.applyChange c = .ok b₁ ∧
      version = b₁.version + 1 ∧ b' = { b₁ with version := b₁.version + 1 } := by
  unfold change at h
  by_cases hs : (b.state now).acceptsConfigChanges = true
  · simp only [hs, Bool.not_true, Bool.false_eq_true, if_false] at h
    cases hb : b.applyChange c with
    | error e => simp only [hb] at h; contradiction
    | ok b₁ =>
        simp only [hb, Except.ok.injEq, Prod.mk.injEq] at h
        exact ⟨hs, b₁, rfl, h.1.symm, h.2.symm⟩
  · simp only [Bool.not_eq_true] at hs
    simp only [hs, Bool.not_false, if_true] at h
    contradiction

/-- A change is made before the sale has opened, and numbered. -/
theorem change_ok {c : Change} {version : Nat} (h : b.change c now = .ok (version, b')) :
    ¬ b.HasOpened now ∧ version = b.version + 1 ∧ ∃ t limit overrides, b' = { b with
        terms := some t
        caps := { b.caps with nonAccreditedLimit := limit, overrides }
        version := b.version + 1 } ∧
      match c.ledger? with
      | some tiers => t.tiers = tiers
      | none => ∃ t₀, b.terms = some t₀ ∧ t.tiers = t₀.tiers := by
  obtain ⟨hs, b₁, hb, rfl, rfl⟩ := applied_of_change h
  obtain ⟨t, limit, overrides, rfl, htiers⟩ := applyChange_ok hb
  exact ⟨by simp [hasOpened_iff, hs], rfl, t, limit, overrides, rfl, htiers⟩

/-- Once the sale has opened every change is refused. -/
theorem change_of_hasOpened {c : Change} (h : b.HasOpened now) :
    b.change c now = .error (.configLocked (b.state now)) := by
  simp [change, hasOpened_iff.1 h]

/-- The flag stood there already, or it is turned over. -/
theorem setPaused_cases {paused : Bool} {version : Option Nat}
    (h : b.setPaused paused = .ok (version, b')) :
    (version = none ∧ b' = b ∧ b.paused = paused) ∨
      (version = some (b.version + 1) ∧ b' = { b with paused, version := b.version + 1 } ∧
        b.terms.isSome = true ∧ b.paused = !paused) := by
  unfold setPaused at h
  split at h
  · contradiction
  next hterms =>
  split at h
  next hpaused =>
    simp only [Except.ok.injEq, Prod.mk.injEq] at h
    exact .inl ⟨h.1.symm, h.2.symm, hpaused⟩
  next hpaused =>
    simp only [Except.ok.injEq, Prod.mk.injEq] at h
    refine .inr ⟨h.1.symm, h.2.symm, ?_, ?_⟩
    · simpa [Option.isSome_iff_ne_none] using hterms
    · simpa [Bool.eq_not] using hpaused

theorem setPaused_ok {paused : Bool} {version : Option Nat}
    (h : b.setPaused paused = .ok (version, b')) :
    version = none ∧ b' = b ∨
      version = some (b.version + 1) ∧ b' = { b with paused, version := b.version + 1 } :=
  (setPaused_cases h).imp (fun ⟨hv, hb, _⟩ => ⟨hv, hb⟩) fun ⟨hv, hb, _⟩ => ⟨hv, hb⟩

/-! ## purchasing -/

/-- What passes the check finds the sale open and not paused. -/
theorem checkOpen_ok (h : b.checkOpen now = .ok ()) : b.state now = .opened ∧ b.paused = false := by
  unfold checkOpen at h
  cases hs : b.state now with
  | opened =>
      cases hp : b.paused with
      | false => exact ⟨rfl, rfl⟩
      | true => simp [hs, hp] at h
  | unconfigured | scheduled | closed =>
      simp only [hs] at h
      split at h <;> contradiction

/-- Everything that a plan rests on. -/
theorem plan_ok {r : PurchaseRequest} {checked : Checked} {plan : AllocationPlan}
    (h : b.plan r checked now = .ok plan) :
    b.state now = .opened ∧ b.paused = false ∧ ∃ t, b.terms = some t ∧
      t.config.accepts r.currency = true ∧
      checked.rate.checkFresh r.currency now t.config.rateToleranceSecs = .ok () ∧
      allocate (policy t.config) (input r checked) t.tiers b.caps = .ok plan := by
  unfold Book.plan at h
  cases ho : b.checkOpen now with
  | error e => rw [ho] at h; contradiction
  | ok u =>
      rw [ho] at h
      obtain ⟨hstate, hpaused⟩ := checkOpen_ok ho
      refine ⟨hstate, hpaused, ?_⟩
      cases ht : b.terms with
      | none => simp [ht, bind, Except.bind] at h
      | some t =>
          simp only [ht, bind, Except.bind] at h
          by_cases hc : t.config.accepts r.currency = true
          · simp only [hc, Bool.not_true, Bool.false_eq_true, if_false] at h
            cases hf : checked.rate.checkFresh r.currency now t.config.rateToleranceSecs with
            | error e => simp only [hf] at h; contradiction
            | ok u =>
                simp only [hf] at h
                cases ha : allocate (policy t.config) (input r checked) t.tiers b.caps with
                | error e => rw [ha] at h; contradiction
                | ok plan' =>
                    rw [ha] at h
                    cases h
                    exact ⟨t, rfl, hc, hf, ha⟩
          · simp only [hc, Bool.not_false, if_true] at h
            contradiction

/-- Why there is no plan. -/
theorem plan_error_cases {r : PurchaseRequest} {checked : Checked} {e : SaleError}
    (h : b.plan r checked now = .error e) :
    b.checkOpen now = .error e ∨ e = .notConfigured ∨ e = .unsupportedCurrency r.currency ∨
      (∃ cause, e = .rateUnavailable cause) ∨ ∃ (t : Terms) (cause : AllocationError),
        allocate (policy t.config) (input r checked) t.tiers b.caps = .error cause ∧
          e = .ofAllocation cause := by
  unfold plan at h
  cases hopen : b.checkOpen now with
  | error e' =>
      rw [hopen] at h
      cases h
      exact .inl rfl
  | ok u =>
      simp only [hopen, bind, Except.bind] at h
      split at h
      · cases h
        exact .inr (.inl rfl)
      next t _ =>
      split at h
      · cases h
        exact .inr (.inr (.inl rfl))
      split at h
      · cases h
        exact .inr (.inr (.inr (.inl ⟨_, rfl⟩)))
      cases hallocate : allocate (policy t.config) (input r checked) t.tiers b.caps with
      | ok plan =>
          rw [hallocate] at h
          contradiction
      | error cause =>
          rw [hallocate] at h
          cases h
          exact .inr (.inr (.inr (.inr ⟨t, cause, hallocate, rfl⟩)))

/-- An identity that was found is not in use. -/
theorem freshId?_not_mem {saleId : Uuid} {inUse : Uuid → Bool} {fuel n : Nat} {id : Uuid}
    {next : Nat} (h : freshId? saleId inUse fuel n = some (id, next)) : inUse id = false := by
  induction fuel generalizing n with
  | zero =>
      unfold freshId? at h
      split at h
      · contradiction
      · simp_all
  | succ fuel ih =>
      unfold freshId? at h
      split at h
      · exact ih h
      · simp_all

/-- The record that a purchase is filed as. -/
def newRecord (r : PurchaseRequest) (checked : Checked) (now : Instant) (plan : AllocationPlan)
    (purchaseId : Uuid) : PurchaseRecord where
  purchaseId := purchaseId
  buyer := r.buyer
  beneficiary := r.recipient
  investorClass := checked.investorClass
  rate := checked.rate
  plan := plan
  committedAt := now
  settlement := .initial

/-- Everything that recording a plan checks and changes. -/
theorem recordPlan_ok {r : PurchaseRequest} {checked : Checked} {plan : AllocationPlan}
    {record : PurchaseRecord} (h : b.recordPlan r checked now plan = .ok (record, b')) :
    ∃ t tiers caps unitsRaised fundsRaised tokensByCurrency id nextSeq,
      b.terms = some t ∧ commitPlan plan t.tiers b.caps = .ok (tiers, caps) ∧
      b.unitsRaised.add? plan.result.unitsConsumed = some unitsRaised ∧
      addTo b.fundsRaised r.currency plan.result.fundsConsumed = some fundsRaised ∧
      addTo b.tokensByCurrency r.currency plan.result.tokensAllocated = some tokensByCurrency ∧
      b.purchaseIdOf r t.config.saleId = .ok (id, nextSeq) ∧
      record = newRecord r checked now plan id ∧
      b' = { b with
        terms := some { t with tiers }
        caps, unitsRaised, fundsRaised, tokensByCurrency, nextSeq
        purchases := b.purchases.insert id record
        version := b.version + 1 } := by
  unfold recordPlan at h
  split at h
  · contradiction
  next unitsRaised hunits =>
  split at h
  · contradiction
  next fundsRaised hfunds =>
  split at h
  · contradiction
  next tokensByCurrency htokens =>
  split at h
  · contradiction
  next t ht =>
  split at h
  · contradiction
  next tiers caps hcommit =>
  split at h
  · contradiction
  next id nextSeq hid =>
  simp only [Except.ok.injEq, Prod.mk.injEq] at h
  obtain ⟨rfl, hb⟩ := h
  exact ⟨t, tiers, caps, unitsRaised, fundsRaised, tokensByCurrency, id, nextSeq, ht, hcommit,
    hunits, hfunds, htokens, hid, rfl, hb.symm⟩

/-- A purchase is planned and recorded under an identity that was not in use. -/
theorem commitPurchase_ok {r : PurchaseRequest} {checked : Checked} {record : PurchaseRecord}
    (h : b.commitPurchase r checked now = .ok (record, b')) :
    b.plan r checked now = .ok record.plan ∧
      b.recordPlan r checked now record.plan = .ok (record, b') ∧
      b.purchases.get? record.purchaseId = none := by
  unfold commitPurchase at h
  split at h
  · contradiction
  next hfilter =>
  split at h
  · contradiction
  next plan hplan =>
  obtain ⟨t, tiers, caps, unitsRaised, fundsRaised, tokensByCurrency, id, nextSeq, -, -, -, -, -,
    hid, hrecord, -⟩ := recordPlan_ok h
  have heq : record.plan = plan := by rw [hrecord]; rfl
  have hfree : b.purchases.contains id = false := by
    unfold purchaseIdOf at hid
    cases hr : r.purchaseId with
    | some given =>
        simp only [hr, Except.ok.injEq, Prod.mk.injEq] at hid
        rw [hr, Option.filter_some, hid.1] at hfilter
        simpa using hfilter
    | none =>
        simp only [hr] at hid
        split at hid
        · next found hfresh =>
            simp only [Except.ok.injEq] at hid
            exact freshId?_not_mem (hid ▸ hfresh)
        · contradiction
  have hnone : b.purchases.get? record.purchaseId = none := by
    rw [hrecord]
    change b.purchases.get? id = none
    simpa [Directory.contains] using hfree
  exact ⟨heq ▸ hplan, heq ▸ h, hnone⟩

/-- A purchase is recorded as it was requested and checked. -/
theorem newRecord_of_commitPurchase {r : PurchaseRequest} {checked : Checked}
    {record : PurchaseRecord} (h : b.commitPurchase r checked now = .ok (record, b')) :
    record = newRecord r checked now record.plan record.purchaseId := by
  obtain ⟨_, _, _, _, _, _, _, _, -, -, -, -, -, -, hnew, -⟩ :=
    recordPlan_ok (commitPurchase_ok h).2.1
  rw [hnew]
  rfl

/-! ## settlement -/

/-- An attempt that has nothing to do leaves the book as it was. -/
theorem eq_of_beginSettlement_idle {id : Uuid} {status : SettlementStatus}
    (h : b.beginSettlement id = .ok (.idle status, b')) : b' = b := by
  unfold beginSettlement at h
  split at h
  · contradiction
  split at h
  · contradiction
  split at h
  · simp only [Except.ok.injEq, Prod.mk.injEq] at h; exact h.2.symm
  split at h
  · simp only [Except.ok.injEq, Prod.mk.injEq] at h; exact h.2.symm
  · simp at h

/-- The record of a purchase while an attempt at its settlement is under way. -/
def attempted (r : PurchaseRecord) : PurchaseRecord :=
  { r with settlement := { r.settlement with
      inFlight := true, attempts := r.settlement.attempts + 1 } }

/-- What an attempt that starts has found, and the one record that it changes. -/
theorem beginSettlement_started {id : Uuid} {record : PurchaseRecord} {destination : String}
    (h : b.beginSettlement id = .ok (.started record destination, b')) :
    ∃ t r, b.terms = some t ∧ b.purchases.get? id = some r ∧ r.isSettled = false ∧
      r.settlement.inFlight = false ∧ destination = t.config.settlementDestination ∧
      record = attempted r ∧ b' = { b with purchases := b.purchases.insert id record } := by
  unfold beginSettlement at h
  split at h
  · contradiction
  next t ht =>
  split at h
  · contradiction
  next r hr =>
  split at h
  · simp at h
  next hsettled =>
  split at h
  · simp at h
  next hflight =>
  simp only [Except.ok.injEq, Prod.mk.injEq, Attempt.started.injEq] at h
  obtain ⟨⟨rfl, rfl⟩, rfl⟩ := h
  exact ⟨t, r, ht, hr, by simpa using hsettled, by simpa using hflight, rfl, rfl, rfl⟩

/-! ## finalizing -/

/-- What finalizing has found when it starts, and the flag that it sets. -/
theorem beginFinalize_ok {c : Closing} (h : b.beginFinalize now = .ok (c, b')) :
    b.finalized = false ∧ b.finalizing = false ∧ b.state now = .closed ∧
      ∃ t, b.terms = some t ∧
        c = ⟨t.config.saleId, t.config.treasury, t.tiers.totalRemaining, t.tiers.totalSold⟩ ∧
        b' = { b with finalizing := true } := by
  unfold beginFinalize at h
  split at h
  · contradiction
  next hfinalized =>
  simp only [ne_eq, ite_not] at h
  split at h
  next hstate =>
    split at h
    · contradiction
    next hfinalizing =>
    split at h
    · contradiction
    next t ht =>
    simp only [Except.ok.injEq, Prod.mk.injEq] at h
    exact ⟨by simpa using hfinalized, by simpa using hfinalizing, hstate, t, ht, h.1.symm,
      h.2.symm⟩
  · contradiction

end Book

end TokenSale
