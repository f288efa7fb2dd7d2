import TokenSale.Proofs.AllOrNothing
import TokenSale.Proofs.Conservation
import TokenSale.Proofs.PlanCommit
import TokenSale.Proofs.Warrant

/-!
# TokenSale.Proofs.Preview

A preview and a purchase agree.  They share the plan, but a purchase looks for
a duplicate before it, adds to three sums and commits to tiers and limits that
check it again.  None of these refuses a plan that was made on the same book,
except where a sum leaves the range of amounts.

* `allocate_error` — what a plan is refused for;
* `Agrees`, `Book.agrees_commitPurchase` — a plan and its commit on one book;
* `Program.OnlyLooks.alone` — what only looks leaves everything alone;
* `Program.Meets`, `Run.not_isRuledOut` — what no purchase of a run ends with;
* `preview_agrees` — a preview and a purchase of the same request.
-/

namespace TokenSale

/-! ## what a plan is refused for -/

/-- A reason not to plan, as opposed to one not to commit. -/
def AllocationError.IsOfPlan : AllocationError → Prop
  | capacityExceeded _ | capCommit _ | overflow .capCommit => False
  | _ => True

/-- Taking from a slot fails only for a reason that planning may give. -/
theorem Take.of_error {budget : Units} {capacity : Tokens} {price : Price} {e : AllocationError}
    (h : Take.of budget capacity price = .error e) : e.IsOfPlan := by
  unfold Take.of at h
  split at h
  · cases h
    trivial
  split at h
  · contradiction
  split at h
  · cases h
    trivial
  split at h
  · cases h
    trivial
  · contradiction

theorem Basket.buy_error {slots : List Slot} {b : Basket} {e : AllocationError}
    (h : b.buy slots = .error e) : e.IsOfPlan := by
  induction slots generalizing b with
  | nil => contradiction
  | cons s rest ih =>
      rw [buy] at h
      split at h
      · contradiction
      split at h
      next e' hx =>
        cases h
        exact Take.of_error hx
      · simp only at h
        split at h
        · contradiction
        · exact ih h

theorem FallsShort.isOfPlan {input : AllocationInput} {available : Units} {fills : List Fill}
    {e : AllocationError} (h : FallsShort input available fills e) : e.IsOfPlan := by
  cases h <;> trivial

theorem TurnedAway.isOfPlan {policy : AllocationPolicy} {input : AllocationInput}
    {tiers : TierLedger} {caps : CapTracker} {e : AllocationError}
    (h : TurnedAway policy input tiers caps e) : e.IsOfPlan := by
  cases h with
  | limit hrequested h =>
      obtain ⟨limit, invested, rfl⟩ := spendable_error h
      trivial
  | _ => trivial

/-- A plan is refused for reasons of its own only. -/
theorem allocate_error {policy : AllocationPolicy} {input : AllocationInput} {tiers : TierLedger}
    {caps : CapTracker} {e : AllocationError} (h : allocate policy input tiers caps = .error e) :
    e.IsOfPlan := by
  obtain ⟨e', haway, he⟩ | ⟨requested, available, hstart⟩ := allocate_cases policy input tiers caps
  · rw [he] at h
    cases h
    exact haway.isOfPlan
  rw [hstart.allocate_eq] at h
  cases hwalk : walk (policy.isDiscountEligible input.currency) 0 tiers.tiers ⟨available, []⟩ with
  | error e' =>
      rw [hwalk] at h
      cases h
      rw [walk_eq_buy] at hwalk
      exact Basket.buy_error hwalk
  | ok basket =>
      rw [hwalk] at h
      exact (fallsShort_of_planOf h).isOfPlan

/-! ## a plan and its commit -/

/-- Tokens that a plan allocates fit where the tokens sold are summed. -/
theorem sold_add_lt {policy : AllocationPolicy} {input : AllocationInput} {tiers : TierLedger}
    {caps : CapTracker} {plan : AllocationPlan} (ht : tiers.Built)
    (h : allocate policy input tiers caps = .ok plan) :
    tiers.sold + plan.result.tokensAllocated.val < Quantity.limit := by
  obtain ⟨tiers', hfills, -⟩ := commitFills_of_allocate ht h
  have hsold := commitFills_sold hfills
  rw [← (allocate_adds h).tokens] at hsold
  rw [← hsold]
  have hbuilt := ht.commitFills hfills
  exact hbuilt.sold_le.trans_lt hbuilt.offered_lt

/-- Why a plan that was made is not committed: the purchase is on record, or a
sum leaves the range of amounts. -/
def SaleError.RefusesCommit : SaleError → Prop
  | duplicatePurchase _ | overflow .unitsRaised | overflow .fundsRaised
  | overflow (.allocation .capCommit) => True
  | _ => False

/-- What a purchase is never refused for: a tier that has less left than was
planned, or more tokens for a currency than can be counted. -/
def SaleError.IsRuledOut : SaleError → Prop
  | capacityExceeded _ | overflow .tokensByCurrency => True
  | _ => False

/-- What may refuse a commit is not ruled out. -/
theorem SaleError.RefusesCommit.not_isRuledOut {e : SaleError} (h : e.RefusesCommit) :
    ¬ e.IsRuledOut := by
  unfold RefusesCommit at h
  split at h
  · simp [IsRuledOut]
  · simp [IsRuledOut]
  · simp [IsRuledOut]
  · simp [IsRuledOut]
  · contradiction

/-- A plan and what comes of committing it, as far as the latter shows a plan. -/
inductive Agrees {α : Type} (planOf : α → AllocationPlan) :
    Except SaleError AllocationPlan → Except SaleError α → Prop
  | committed (a : α) : Agrees planOf (.ok (planOf a)) (.ok a)
  | refused {plan : AllocationPlan} {e : SaleError} (h : e.RefusesCommit) :
    Agrees planOf (.ok plan) (.error e)
  | same (e : SaleError) : Agrees planOf (.error e) (.error e)
  | duplicate (e : SaleError) (id : Uuid) :
    Agrees planOf (.error e) (.error (.duplicatePurchase id))

/-- Two answers that agree on an error agree whatever they would have returned. -/
theorem Agrees.of_error {α β : Type} {planOf : α → AllocationPlan} {planOf' : β → AllocationPlan}
    {planned : Except SaleError AllocationPlan} {e : SaleError}
    (h : Agrees planOf planned (.error e)) : Agrees planOf' planned (.error e) := by
  cases h with
  | refused h => exact .refused h
  | same => exact .same e
  | duplicate e id => exact .duplicate e id

namespace Book

variable {b : Book} {now : Instant} {r : PurchaseRequest} {checked : Checked}

/-- The tokens sold for a currency are among all that are sold. -/
theorem sumIn_tokensByCurrency_le (hr : b.Reconciles) (hb : b.Balanced) {t : Terms}
    (ht : b.terms = some t) (c : Currency) : sumIn b.tokensByCurrency c ≤ t.tiers.sold := by
  rw [hr.tokensByCurrency c, hb.sold t ht, sumOf_tokens]
  exact List.Sublist.sum_le_sum (List.filter_sublist.map _) fun _ _ => Nat.zero_le _

/-- The tokens of a currency do not overflow while the tiers can be counted. -/
theorem addTo_tokensByCurrency (hr : b.Reconciles) (hb : b.Balanced) {t : Terms}
    (ht : b.terms = some t) {c : Currency} {tokens : Tokens}
    (hlt : t.tiers.sold + tokens.val < Quantity.limit) :
    addTo b.tokensByCurrency c tokens ≠ none := by
  have hle := sumIn_tokensByCurrency_le hr hb ht c
  intro hnone
  rw [addTo, Option.map_eq_none_iff, Quantity.add?_eq_none_iff] at hnone
  rw [sumIn] at hle
  omega

/-- A plan that was made on the book is recorded, or a sum or an identity
stands in the way. -/
theorem recordPlan_of_plan (hr : b.Reconciles) (hb : b.Balanced) {plan : AllocationPlan}
    (h : b.plan r checked now = .ok plan) :
    (∃ record b', b.recordPlan r checked now plan = .ok (record, b') ∧ record.plan = plan) ∨
      ∃ e, b.recordPlan r checked now plan = .error e ∧ e.RefusesCommit := by
  obtain ⟨-, -, t, ht, -, -, hallocate⟩ := plan_ok h
  have hbuilt := hb.built t ht
  have htokens := addTo_tokensByCurrency (c := r.currency) hr hb ht (sold_add_lt hbuilt hallocate)
  unfold recordPlan
  cases hunits : b.unitsRaised.add? plan.result.unitsConsumed with
  | none => exact .inr ⟨_, rfl, trivial⟩
  | some unitsRaised =>
  cases hfunds : addTo b.fundsRaised r.currency plan.result.fundsConsumed with
  | none => exact .inr ⟨_, rfl, trivial⟩
  | some fundsRaised =>
  cases hby : addTo b.tokensByCurrency r.currency plan.result.tokensAllocated with
  | none => exact absurd hby htokens
  | some tokensByCurrency =>
  simp only [ht]
  obtain ⟨tiers, caps, hcommit⟩ | hcommit := commitPlan_of_allocate hbuilt hallocate
  · simp only [hcommit]
    cases hid : b.purchaseIdOf r t.config.saleId with
    | ok found => exact .inl ⟨_, _, rfl, rfl⟩
    | error e =>
        refine .inr ⟨e, rfl, ?_⟩
        unfold purchaseIdOf at hid
        split at hid
        · contradiction
        split at hid
        · contradiction
        · cases hid
          trivial
  · simp only [hcommit]
    exact .inr ⟨_, rfl, trivial⟩

/-- **On one book a plan and its commit agree.** -/
theorem agrees_commitPurchase (hr : b.Reconciles) (hb : b.Balanced) :
    Agrees (fun x => x.1.plan) (b.plan r checked now) (b.commitPurchase r checked now) := by
  unfold commitPurchase
  split
  next id hid =>
    cases b.plan r checked now with
    | ok plan => exact .refused trivial
    | error e => exact .duplicate e id
  · cases hplan : b.plan r checked now with
    | error e => exact .same e
    | ok plan =>
        obtain ⟨record, b', hrecord, rfl⟩ | ⟨e, he, hrefuses⟩ := recordPlan_of_plan hr hb hplan
        · simp only [hrecord]
          exact .committed (record, b')
        · simp only [he]
          exact .refused hrefuses

/-- A sale that is not open gives no error that is ruled out. -/
theorem checkOpen_error {e : SaleError} (h : b.checkOpen now = .error e) : ¬ e.IsRuledOut := by
  unfold checkOpen at h
  split at h
  · split at h
    · cases h
      exact id
    · contradiction
  · split at h
    all_goals
      cases h
      exact id

theorem plan_error {e : SaleError} (h : b.plan r checked now = .error e) : ¬ e.IsRuledOut := by
  obtain hopen | rfl | rfl | ⟨cause, rfl⟩ | ⟨t, cause, hallocate, rfl⟩ := plan_error_cases h
  · exact checkOpen_error hopen
  · exact id
  · exact id
  · exact id
  · have hplan := allocate_error hallocate
    cases cause with
    | capacityExceeded cause | capCommit cause => exact hplan.elim
    | _ => exact id

/-- **No commit is refused for what is ruled out, on a book that reconciles and
balances.** -/
theorem commitPurchase_error (hr : b.Reconciles) (hb : b.Balanced) {e : SaleError}
    (h : b.commitPurchase r checked now = .error e) : ¬ e.IsRuledOut := by
  have hagrees : Agrees (fun x => x.1.plan) (b.plan r checked now)
      (b.commitPurchase r checked now) := agrees_commitPurchase hr hb
  rw [h] at hagrees
  generalize hplan : b.plan r checked now = planned at hagrees
  cases hagrees with
  | refused hrefuses => exact hrefuses.not_isRuledOut
  | same => exact plan_error hplan
  | duplicate e' id => exact fun h => h

end Book

/-! ## programs that only look -/

namespace Program

variable {α β : Type} {p : Program α} {reply reply' : (c : Call) → c.Answer} {now : Instant}
  {b : Book}

theorem OnlyLooks.bind {k : α → Program β} (hp : p.OnlyLooks) (hk : ∀ a, (k a).OnlyLooks) :
    (p >>= k).OnlyLooks := by
  induction p with
  | done a => exact hk a
  | locked f next ih => exact fun b now => ⟨(hp b now).1, ih b now (hp b now).2⟩
  | call c next ih => exact ⟨hp.1, fun a => ih a (hp.2 a)⟩

theorem landed_of_ne_effect {c : Call} (hc : ∀ e, c ≠ .effect e) (a : c.Answer) :
    c.landed a = [] := by
  cases c with
  | compliance | rate => rfl
  | effect e => exact absurd rfl (hc e)

/-- What only looks leaves everything alone. -/
theorem OnlyLooks.alone (hp : p.OnlyLooks) :
    (p.alone reply now b).book = b ∧ (p.alone reply now b).effects = [] := by
  induction p with
  | done a => exact ⟨rfl, rfl⟩
  | locked f next ih =>
      obtain ⟨hf, hnext⟩ := hp b now
      rw [Program.alone, hf]
      exact ih b now hnext
  | call c next ih =>
      obtain ⟨hbook, heffects⟩ := ih (reply c) (hp.2 (reply c))
      refine ⟨hbook, ?_⟩
      simp only [Program.alone, landed_of_ne_effect hp.1, heffects, List.append_nil]

/-- What follows runs as if the looks had not been. -/
theorem OnlyLooks.alone_bind (hp : p.OnlyLooks) (k : α → Program β) :
    (p >>= k).alone reply now b = (k (p.alone reply now b).result).alone reply now b := by
  induction p with
  | done a => rfl
  | locked f next ih =>
      obtain ⟨hf, hnext⟩ := hp b now
      have hrest := ih b now hnext
      change (next b now >>= k).alone reply now (f b now) = _
      rw [Program.alone, hf, hrest]
  | call c next ih =>
      have hrest := ih (reply c) (hp.2 (reply c))
      change ({ (next (reply c) >>= k).alone reply now b with
        effects := c.landed (reply c) ++ ((next (reply c) >>= k).alone reply now b).effects } :
          Outcome β) = _
      rw [landed_of_ne_effect hp.1, List.nil_append]
      exact hrest

/-- What is found depends on the answers to the questions that are asked. -/
theorem OnlyLooks.alone_congr (hp : p.OnlyLooks)
    (hreply : ∀ c, (∀ e, c ≠ .effect e) → reply c = reply' c) :
    (p.alone reply now b).result = (p.alone reply' now b).result := by
  induction p with
  | done a => rfl
  | locked f next ih =>
      obtain ⟨hf, hnext⟩ := hp b now
      rw [Program.alone, Program.alone, hf]
      exact ih b now hnext
  | call c next ih =>
      simp only [Program.alone, hreply c hp.1]
      exact ih _ (hp.2 _)

/-- A preview only looks. -/
theorem onlyLooks_preview (r : PurchaseRequest) : (Sale.preview r).OnlyLooks := by
  refine (onlyLooks_check r).bind fun checked => ?_
  cases checked with
  | error e => trivial
  | ok checked => exact fun b now => ⟨rfl, trivial⟩

/-- A refused step leaves the book, and the program goes on with the refusal. -/
theorem alone_attempt_error {step : Book → Instant → Except SaleError (α × Book)}
    {k : Except SaleError α → Program β} {e : SaleError} (h : step b now = .error e) :
    (attempt step >>= k).alone reply now b = (k (.error e)).alone reply now b := by
  unfold attempt
  rw [alone_atomically, h]

/-- A purchase by itself either commits and is told so, or leaves everything
alone and is told why. -/
theorem alone_purchase (r : PurchaseRequest) (reply : (c : Call) → c.Answer) (now : Instant)
    (b : Book) : let found := ((Sale.check r).alone reply now b).result
    let purchase := (Sale.purchase r).alone reply now b
    (∃ checked record b', found = .ok checked ∧
        b.commitPurchase r checked now = .ok (record, b') ∧ record.Confirms purchase.result ∧
        purchase.book.Holds record) ∨
      ∃ e, purchase = ⟨.error e, b, []⟩ ∧ (found = .error e ∨
        ∃ checked, found = .ok checked ∧ b.commitPurchase r checked now = .error e) := by
  simp only [Sale.purchase, (onlyLooks_check r).alone_bind]
  cases ((Sale.check r).alone reply now b).result with
  | error e => exact .inr ⟨e, rfl, .inl rfl⟩
  | ok checked =>
      cases hcommit : b.commitPurchase r checked now with
      | error e =>
          refine .inr ⟨e, ?_, .inr ⟨checked, rfl, hcommit⟩⟩
          simp only
          rw [alone_attempt_error hcommit]
          rfl
      | ok x =>
          obtain ⟨record, b'⟩ := x
          refine .inl ⟨checked, record, b', rfl, hcommit, ?_⟩
          simp only
          rw [alone_attempt hcommit]
          have hholds := (Book.holds_of_commitPurchase hcommit).1
          refine .imp_right And.left <| Settling.alone
            (Settling.bind (settling_settle.mono ?_)) hholds reply now
          rintro _ ⟨status, rfl⟩
          exact ⟨status, rfl⟩

/-- A preview by itself ends with the plan for what was checked. -/
theorem alone_preview (r : PurchaseRequest) : ((Sale.preview r).alone reply now b).result =
    match ((Sale.check r).alone reply now b).result with
    | .error e => .error e
    | .ok checked => b.plan r checked now := by
  unfold Sale.preview
  rw [(onlyLooks_check r).alone_bind]
  cases ((Sale.check r).alone reply now b).result with
  | error e => rfl
  | ok checked => rfl

/-- Both by themselves agree if the same was found out. -/
theorem agrees_alone (hr : b.Reconciles) (hb : b.Balanced) {r : PurchaseRequest}
    (hfound : ((Sale.check r).alone reply now b).result =
      ((Sale.check r).alone reply' now b).result) :
    Agrees PurchaseReceipt.plan ((Sale.preview r).alone reply now b).result
      ((Sale.purchase r).alone reply' now b).result := by
  rw [alone_preview, hfound]
  obtain ⟨checked, record, b', hchecked, hcommit, ⟨status, hresult⟩, -⟩ |
    ⟨e, hpurchase, hrefused⟩ := alone_purchase r reply' now b
  · have hplan := (Book.commitPurchase_ok hcommit).1
    simp only [hchecked, hplan, hresult]
    exact .committed (record.receipt status)
  · rw [hpurchase]
    obtain hchecked | ⟨checked, hchecked, hcommit⟩ := hrefused
    · simp only [hchecked]
      exact .same e
    · have hagrees : Agrees (fun x => x.1.plan) (b.plan r checked now)
          (b.commitPurchase r checked now) := Book.agrees_commitPurchase hr hb
      rw [hcommit] at hagrees
      simp only [hchecked]
      exact hagrees.of_error

/-- The purchase that a receipt is for was not on record before, and is now. -/
theorem filed_of_alone_purchase {r : PurchaseRequest} {receipt : PurchaseReceipt}
    (h : ((Sale.purchase r).alone reply now b).result = .ok receipt) :
    b.purchases.get? receipt.purchaseId = none ∧ ∃ record,
      ((Sale.purchase r).alone reply now b).book.purchases.get? receipt.purchaseId = some record ∧
        record.plan = receipt.plan := by
  obtain ⟨checked, record, b', -, hcommit, ⟨status, hresult⟩, hholds⟩ | ⟨e, hpurchase, -⟩ :=
    alone_purchase r reply now b
  · obtain rfl : record.receipt status = receipt := Except.ok.inj (hresult.symm.trans h)
    obtain ⟨x, hx, hfiled⟩ := hholds.filed
    refine ⟨(Book.purchases_of_commitPurchase hcommit).1, x, hx, ?_⟩
    exact congrArg (fun f => f.plan) hfiled
  · rw [hpurchase] at h
    contradiction

/-! ### what a purchase ends with -/

variable {I : Book → Prop} {ends : α → Prop}

/-- The program ends as told if the book is as told whenever it is looked at. -/
def Meets (I : Book → Prop) (ends : α → Prop) : Program α → Prop
  | done a => ends a
  | locked _ k => ∀ b now, I b → Meets I ends (k b now)
  | call _ k => ∀ a, Meets I ends (k a)

/-- A program that keeps an invariant may be followed by another one that does. -/
theorem Meets.bind {p : Program β} {k : β → Program α}
    (hp : p.Meets I fun b => (k b).Meets I ends) : (p >>= k).Meets I ends := by
  induction p with
  | done b => exact hp
  | locked f next ih => exact fun b now hb => ih b now (hp b now hb)
  | call c next ih => exact fun a => ih a (hp a)

theorem Meets.mono {ends' : α → Prop} {p : Program α} (hp : p.Meets I ends)
    (h : ∀ a, ends a → ends' a) : p.Meets I ends' := by
  induction p with
  | done a => exact h a hp
  | locked f k ih => exact fun b now hb => ih b now (hp b now hb)
  | call c k ih => exact fun a => ih a (hp a)

/-- What a program that only looks returns is what the invariant allows. -/
theorem OnlyLooks.alone_meets {p : Program α} (hp : p.OnlyLooks) (hends : p.Meets I ends)
    (hb : I b) : ends (p.alone reply now b).result := by
  induction p with
  | done a => exact hends
  | locked f next ih =>
      obtain ⟨hf, hnext⟩ := hp b now
      rw [Program.alone, hf]
      exact ih b now hnext (hends b now hb)
  | call c next ih => exact ih (reply c) (hp.2 (reply c)) (hends (reply c))

/-- The result is not one of the errors that are ruled out. -/
def RulesOut (result : Except SaleError α) : Prop := ∀ e, result = .error e → ¬ e.IsRuledOut

theorem rulesOut_ok (a : α) : RulesOut (.ok a) := fun _ h => nomatch h

theorem rulesOut_error {e : SaleError} : RulesOut (α := α) (.error e) ↔ ¬ e.IsRuledOut :=
  ⟨fun h => h e rfl, fun h _ he => Except.error.inj he ▸ h⟩

/-- An attempt meets what its success and each of its refusals meet. -/
theorem meets_attempt {step : Book → Instant → Except SaleError (β × Book)}
    {k : Except SaleError β → Program α}
    (hok : ∀ x, (k (.ok x)).Meets I ends)
    (herr : ∀ b now e, I b → step b now = .error e → (k (.error e)).Meets I ends) :
    (attempt step >>= k).Meets I ends := by
  intro b now hb
  cases hs : step b now with
  | ok x =>
      simp only [hs]
      exact hok x.1
  | error e =>
      simp only [hs]
      exact herr b now e hb hs

theorem meets_look {f : Book → Instant → β} {k : β → Program α}
    (hk : ∀ b now, I b → (k (f b now)).Meets I ends) : (look f >>= k).Meets I ends :=
  fun b now hb => hk b now hb

/-- The checks of a request give no error that is ruled out. -/
theorem meets_check (r : PurchaseRequest) : (Sale.check r).Meets I RulesOut := by
  unfold Sale.check
  split
  · exact rulesOut_error.2 id
  refine meets_look fun b now hb => ?_
  cases hprecheck : Sale.precheck b.config? r with
  | error e =>
      refine rulesOut_error.2 ?_
      unfold Sale.precheck at hprecheck
      split at hprecheck
      · cases hprecheck
        exact id
      split at hprecheck
      · cases hprecheck
        exact id
      split at hprecheck
      · cases hprecheck
        exact id
      · contradiction
  | ok u =>
      intro verdict
      cases verdict with
      | error e => exact rulesOut_error.2 id
      | ok verdict =>
          change Meets I RulesOut (if _ then _ else _)
          split
          · exact rulesOut_error.2 id
          · intro rate
            cases rate with
            | error e => exact rulesOut_error.2 id
            | ok rate => exact rulesOut_ok _

theorem meets_runSteps {record : PurchaseRecord} {destination : String}
    (steps : List SettlementStep) (p : SettlementProgress) :
    (runSteps record destination steps p).Meets I fun _ => True :=
  runSteps_induct (P := Meets I fun _ => True) (fun _ => trivial) (fun _ _ h => h) record
    destination steps p

theorem meets_settle (id : Uuid) : (settle id).Meets I RulesOut := by
  refine meets_attempt (fun attempt => ?_) fun b now e hb he => ?_
  · cases attempt with
    | idle status => exact rulesOut_ok status
    | started record destination =>
        exact ((meets_runSteps _ _).mono fun x _ b now hb => rulesOut_ok _).bind
  · refine rulesOut_error.2 ?_
    unfold Book.beginSettlement at he
    split at he
    · cases he
      exact fun h => h
    split at he
    · cases he
      exact fun h => h
    split at he
    · contradiction
    split at he
    · contradiction
    · contradiction

/-- A purchase that is refused leaves everything alone. -/
theorem refused_of_alone_purchase (hr : b.Reconciles) (hb : b.Balanced) {r : PurchaseRequest}
    {e : SaleError} (h : ((Sale.purchase r).alone reply now b).result = .error e) :
    ¬ e.IsRuledOut ∧ ((Sale.purchase r).alone reply now b).book = b ∧
      ((Sale.purchase r).alone reply now b).effects = [] := by
  obtain ⟨checked, record, b', -, -, ⟨status, hresult⟩, -⟩ | ⟨e', hpurchase, hrefused⟩ :=
    alone_purchase r reply now b
  · cases hresult.symm.trans h
  · rw [hpurchase] at h ⊢
    cases h
    refine ⟨?_, rfl, rfl⟩
    obtain hchecked | ⟨checked, -, hcommit⟩ := hrefused
    · have hends := meets_check (I := fun _ => True) r
      exact (onlyLooks_check r).alone_meets hends trivial e hchecked
    · exact Book.commitPurchase_error hr hb hcommit

/-- A purchase is never refused for what is ruled out, whatever else happens
while it is under way. -/
theorem meets_purchase (r : PurchaseRequest) :
    (Sale.purchase r).Meets (fun b => b.Reconciles ∧ b.Balanced) RulesOut := by
  refine ((meets_check r).mono fun checked hchecked => ?_).bind
  cases checked with
  | error e => exact rulesOut_error.2 (rulesOut_error.1 hchecked)
  | ok checked =>
      refine meets_attempt (fun record => ?_) fun b now e hb he => ?_
      · refine ((meets_settle record.purchaseId).mono fun status hstatus => ?_).bind
        cases status with
        | error e => exact rulesOut_error.2 (rulesOut_error.1 hstatus)
        | ok status => exact rulesOut_ok _
      · exact rulesOut_error.2 (Book.commitPurchase_error hb.1 hb.2 he)

end Program

/-! ## previews and purchases in a run -/

section

variable {t : Instant} {es : List Event} {s : System} {i : Nat}

/-- An operation ends as its program says, if that holds whatever reachable
book it meets. -/
theorem Run.meets {o : Operation} {p : Program o.Result} {ends : o.Result → Prop}
    (ho : o.program.Meets (fun b => b.Reconciles ∧ b.Balanced) ends)
    (h : Run Forward (.start t) es s) (hi : s.sessions i = some ⟨o, p⟩) :
    p.Meets (fun b => b.Reconciles ∧ b.Balanced) ends := by
  induction h generalizing p with
  | refl => simp [System.start] at hi
  | @step es s' s e h hs ih =>
      obtain ⟨he, p', hp'⟩ | ⟨rfl, -, rfl⟩ := hs.session_before hi
      · have hrest := ih hp'
        obtain ⟨-, hp⟩ | ⟨f, k, -, rfl, -, hp⟩ | ⟨c, k, a, -, rfl, -, hp⟩ := hs.session_cases hp' he
        · rw [hi, Option.some.injEq] at hp
          cases hp
          exact hrest
        · rw [hi, Option.some.injEq] at hp
          cases hp
          exact hrest _ _ h.reconciles_balanced
        · rw [hi, Option.some.injEq] at hp
          cases hp
          exact hrest a
      · simp only [System.withSession, Function.update_self, Option.some.injEq] at hi
        cases hi
        exact ho

/-- No purchase of a run ends with an error that is ruled out. -/
theorem Run.not_isRuledOut (h : Run Forward (.start t) es s) {r : PurchaseRequest} {e : SaleError}
    (he : .finish i (.purchase r) (.error e) ∈ es) : ¬ e.IsRuledOut := by
  obtain ⟨es₁, es₂, rfl⟩ := List.append_of_mem he
  obtain ⟨s₁, h₁, hrest⟩ := h.split
  obtain ⟨s₂, hs, -⟩ := hrest.uncons
  cases hs with
  | finish hi =>
      have hends : (Operation.purchase r).program.Meets _ Program.RulesOut :=
        Program.meets_purchase r
      exact Program.rulesOut_error.1 (h₁.meets hends hi)

/-- **A preview and a purchase agree.**  Made on the same book, at the same
moment and with the same answers of compliance and of the rates, the purchase
commits the plan of the preview or is refused as the preview is, apart from
purchases already on record and sums that leave the range of amounts; one that
is refused leaves everything alone, as the preview always does.  On a book that
a run reaches, a plan can be committed whenever it can be made; so no purchase
is refused for a tier or a limit that its plan has not kept to. -/
theorem preview_agrees (h : Run Forward (.start t) es s) (r : PurchaseRequest) (now : Instant)
    (reply reply' : (c : Call) → c.Answer)
    (hcompliance : ∀ i, reply (.compliance i) = reply' (.compliance i))
    (hrate : ∀ c, reply (.rate c) = reply' (.rate c)) :
    let preview := (Sale.preview r).alone reply now s.book
    let purchase := (Sale.purchase r).alone reply' now s.book
    ((Sale.preview r).OnlyLooks ∧ preview.book = s.book ∧ preview.effects = []) ∧
    Agrees PurchaseReceipt.plan preview.result purchase.result ∧
    (∀ receipt, purchase.result = .ok receipt →
      s.book.purchases.get? receipt.purchaseId = none ∧ ∃ record,
        purchase.book.purchases.get? receipt.purchaseId = some record ∧
        record.plan = receipt.plan) ∧
    (∀ e, purchase.result = .error e →
      ¬ e.IsRuledOut ∧ purchase.book = s.book ∧ purchase.effects = []) ∧
    (∀ checked now', Agrees (fun x => x.1.plan) (s.book.plan r checked now')
      (s.book.commitPurchase r checked now')) ∧
    ∀ i r' e, .finish i (.purchase r') (.error e) ∈ es → ¬ e.IsRuledOut := by
  intro preview purchase
  obtain ⟨hr, hb⟩ := h.reconciles_balanced
  have hsame : ((Sale.check r).alone reply now s.book).result =
      ((Sale.check r).alone reply' now s.book).result := by
    refine (Program.onlyLooks_check r).alone_congr fun c hc => ?_
    cases c with
    | compliance i => exact hcompliance i
    | rate c => exact hrate c
    | effect e => exact absurd rfl (hc e)
  exact ⟨⟨Program.onlyLooks_preview r, (Program.onlyLooks_preview r).alone⟩,
    Program.agrees_alone hr hb hsame, fun receipt => Program.filed_of_alone_purchase,
    fun e => Program.refused_of_alone_purchase hr hb, fun checked now' =>
    Book.agrees_commitPurchase hr hb, fun i r' e => h.not_isRuledOut⟩

/-- Thirty tokens are sold as a preview had it, also when they cannot be issued yet. -/
theorem preview_agrees_on_thirty : ∃ es s receipt, Run Forward (.start Sample.early) es s ∧
    ((Sale.purchase Sample.request).alone Sample.refuseIssue Sample.open s.book).result =
      .ok receipt ∧
    ((Sale.preview Sample.request).alone Sample.reply Sample.open s.book).result =
      .ok receipt.plan := by
  obtain ⟨es, h⟩ := Sample.run_configured Sample.reply
  obtain ⟨receipt, hreceipt⟩ : ∃ receipt, ((Sale.purchase Sample.request).alone
      Sample.refuseIssue Sample.open (Sample.configured Sample.reply)).result = .ok receipt :=
    ⟨_, rfl⟩
  obtain ⟨-, hagrees, -⟩ := preview_agrees h Sample.request Sample.open Sample.reply
    Sample.refuseIssue (fun _ => rfl) (fun _ => rfl)
  refine ⟨es, _, receipt, h, hreceipt, ?_⟩
  simp only [System.idle, hreceipt] at hagrees ⊢
  generalize ((Sale.preview Sample.request).alone _ _ _).result = planned at hagrees ⊢
  cases hagrees with
  | committed => rfl

end

end TokenSale
