import TokenSale.Proofs.Finalizing
import TokenSale.Proofs.Preview

/-!
# TokenSale.Proofs.ReliableWorld

Operations from start to end in a world.  A purchase is refused, or it is
committed and put through one attempt at its settlement, which may fail.  In a
world of which no call for an effect fails it is settled at once, and its tokens
are issued: what is on record and what the token ledger keeps stay the same thing.

* `World.run_bind`, `run_attempt_ok`, `run_announce` — running a program by its parts;
* `Book.Attempts`, `World.run_settle` — one attempt, whatever services answer;
* `World.Buys`, `World.buys` — a purchase, refused or committed;
* `World.HasIssued` — what was sold was issued, and nothing else;
* `World.settles_of_reliable` — in a reliable world a purchase is settled at once;
* `World.run_configure`, `run_finalize_ok` — the beginning and the end of a sale.
-/

namespace TokenSale

/-! ## running a program by its parts -/

namespace World

variable {α β : Type} {w : World}

/-- A program runs up to the rest of it, which goes on from there. -/
theorem run_bind (p : Program α) (k : α → Program β) (w : World) :
    run (p >>= k) w = run (k (run p w).1) (run p w).2 := by
  induction p generalizing w with
  | done a => rfl
  | locked f next ih => exact ih ..
  | call c next ih => exact ih ..

/-- A step that succeeds changes the book, and the program goes on with its result.
-/
theorem run_attempt_ok {step : Book → Instant → Except SaleError (α × Book)}
    {k : Except SaleError α → Program β} {x : α} {b : Book}
    (h : step w.book w.now = .ok (x, b)) :
    run (Program.attempt step >>= k) w = run (k (.ok x)) { w with book := b } := by
  rw [Program.attempt, Program.atomically, run_bind, run_locked]
  simp only [h, run_done]

/-- A step that is refused leaves the world, and the program goes on with the
refusal. -/
theorem run_attempt_error {step : Book → Instant → Except SaleError (α × Book)}
    {k : Except SaleError α → Program β} {e : SaleError} (h : step w.book w.now = .error e) :
    run (Program.attempt step >>= k) w = run (k (.error e)) w := by
  rw [Program.attempt, Program.atomically, run_bind, run_locked]
  simp only [h, run_done]

/-- Whether or not the sinks accept an event, the operation goes on. -/
theorem run_announce (event : SaleEvent) (k : Unit → Program β) (w : World) :
    run (Sale.announce event >>= k) w = run (k ()) (w.perform (.emit event)).2 := by
  rw [run_bind]
  rfl

end World

/-- What only looks may use up failures that others were to see, and nothing else. -/
theorem Program.OnlyLooks.run {α : Type} {p : Program α} (hp : p.OnlyLooks) (w : World) :
    ∃ allowList rateFailures, (World.run p w).2 = { w with allowList, rateFailures } := by
  induction p generalizing w with
  | done a => exact ⟨w.allowList, w.rateFailures, rfl⟩
  | locked f next ih =>
      obtain ⟨hf, hnext⟩ := hp w.book w.now
      rw [World.run_locked, hf]
      exact ih w.book w.now hnext w
  | call c next ih =>
      rw [World.run_call]
      obtain ⟨allowList, rateFailures, hrest⟩ := ih (w.serve c).1 (hp.2 _) (w.serve c).2
      rw [hrest]
      cases c with
      | compliance investor => exact ⟨_, _, rfl⟩
      | rate currency =>
          simp only [World.serve]
          split <;> exact ⟨_, _, rfl⟩
      | effect x => exact absurd rfl (hp.1 x)

/-! ## one attempt at a settlement -/

/-- What callers are told about a purchase after an attempt at its settlement. -/
def PurchaseRecord.status (r : PurchaseRecord) : SettlementStatus :=
  (r.settlement.lastError.map .pending).getD .complete

/-- The status is complete exactly if no failure was stored. -/
theorem PurchaseRecord.status_eq_complete_iff (r : PurchaseRecord) :
    r.status = .complete ↔ r.settlement.lastError = none := by
  rw [status]
  cases r.settlement.lastError <;> simp

/-- A purchase has been through an attempt at its settlement that left it as
`r'`, and nothing else has changed.  It is settled unless the attempt failed. -/
structure Book.Attempts (b : Book) (r r' : PurchaseRecord) (b' : Book) : Prop where
  kept : b.Sealed b'
  purchases : b'.purchases = b.purchases.insert r.purchaseId r'
  filed : r'.filed = r.filed
  settled : r'.isSettled = true ↔ r'.settlement.lastError = none

/-- What an attempt that has come to a progress leaves on record. -/
def PurchaseRecord.attemptedTo (r : PurchaseRecord) (p : SettlementProgress)
    (failure : Option CollaboratorError) : PurchaseRecord :=
  { r with settlement := { p with
    inFlight := false, lastError := failure.map CollaboratorError.message } }

theorem PurchaseRecord.status_attemptedTo (r : PurchaseRecord) (p : SettlementProgress)
    (failure : Option CollaboratorError) :
    (r.attemptedTo p failure).status = .ofFailure failure := by
  cases failure <;> rfl

namespace Book

variable {b b' : Book} {r : PurchaseRecord} {destination : String} {p : SettlementProgress}
  {failure : Option CollaboratorError}

/-- **An attempt that is ended leaves its purchase settled unless it failed.** -/
theorem attempts_of_endSettlement
    (hbegin : b.beginSettlement r.purchaseId = .ok (.started (attempted r) destination, b'))
    (hp : p.isComplete r.plan.fills.length = true ↔ failure = none) :
    b.Attempts r ((attempted r).attemptedTo p failure)
      (b'.endSettlement r.purchaseId p failure) := by
  have hkept := (sealed_of_beginSettlement hbegin).trans
    (sealed_of_endSettlement b' r.purchaseId p failure)
  obtain ⟨t, -, -, -, -, -, -, -, rfl⟩ := beginSettlement_started hbegin
  refine ⟨hkept, ?_, rfl, ?_⟩
  · rw [endSettlement]
    simp only [Directory.get?_insert_self, Directory.insert_insert]
    rfl
  · rw [show ((attempted r).attemptedTo p failure).settlement.lastError =
      failure.map CollaboratorError.message from rfl, Option.map_eq_none_iff, ← hp]
    rfl

end Book

namespace World

variable {w : World}

/-- Steps are taken until one is refused; the book and the clock stand still. -/
theorem run_runSteps {r : PurchaseRecord} {destination : String} {steps : List SettlementStep}
    {p : SettlementProgress} (hp : r.outstandingAt p = steps) (w : World) :
    ∃ q failure w', run (runSteps r destination steps p) w = ((q, failure), w') ∧
      w'.book = w.book ∧ (q.isComplete r.plan.fills.length = true ↔ failure = none) := by
  induction steps generalizing p w with
  | nil => exact ⟨p.close, none, w, rfl, rfl, by simp [PurchaseRecord.isComplete_close hp]⟩
  | cons s rest ih =>
      obtain ⟨hbook, -⟩ := w.serve_book (.effect (r.effectOf destination s))
      rw [runSteps, run_call]
      generalize w.serve (.effect (r.effectOf destination s)) = served at hbook
      obtain ⟨a, w₁⟩ := served
      cases a with
      | ok u =>
          obtain ⟨q, failure, w', hrun, hbook', hq⟩ := ih (PurchaseRecord.outstandingAt_mark hp) w₁
          exact ⟨q, failure, w', hrun, hbook'.trans hbook, hq⟩
      | error e =>
          refine ⟨p, some e, w₁, rfl, hbook, ?_⟩
          have hleft : r.outstandingAt p ≠ [] := by simp [hp]
          simpa using fun hcomplete => hleft (PurchaseRecord.outstandingAt_of_isComplete hcomplete)

/-- **The first attempt at a settlement**, whatever services answer. -/
theorem run_settle {r : PurchaseRecord} (ht : w.book.terms.isSome)
    (hr : w.book.purchases.get? r.purchaseId = some r) (hinitial : r.settlement = .initial) :
    ∃ r' w', run (settle r.purchaseId) w = (.ok r'.status, w') ∧ w.book.Attempts r r' w'.book := by
  have hflight : r.settlement.inFlight = false := by rw [hinitial]; rfl
  obtain ⟨t, ht⟩ := Option.isSome_iff_exists.1 ht
  have hbegin := Book.beginSettlement_eq ht hr (PurchaseRecord.isSettled_of_initial hinitial) hflight
  generalize { w.book with purchases := w.book.purchases.insert r.purchaseId (Book.attempted r) } =
    b at hbegin
  obtain ⟨q, failure, w', hrun, hbook, hq⟩ : ∃ q failure w',
      run (runSteps (Book.attempted r) t.config.settlementDestination (Book.attempted r).outstanding
        (Book.attempted r).settlement) { w with book := b } = ((q, failure), w') ∧ w'.book = b ∧
      (q.isComplete r.plan.fills.length = true ↔ failure = none) := run_runSteps rfl _
  refine ⟨(Book.attempted r).attemptedTo q failure,
    { w' with book := w'.book.endSettlement r.purchaseId q failure }, ?_, ?_⟩
  · rw [settle, run_attempt_ok hbegin, PurchaseRecord.status_attemptedTo]
    simp only
    rw [run_bind, hrun]
    rfl
  · rw [hbook]
    exact Book.attempts_of_endSettlement hbegin hq

/-- What a purchase comes to: it is refused and nothing is changed, or it is
committed and put through an attempt at its settlement. -/
inductive Buys (w : World) (q : PurchaseRequest) : Except SaleError PurchaseReceipt → Book → Prop
  | refused (e : SaleError) : Buys w q (.error e) w.book
  | committed {checked : Book.Checked} {record r : PurchaseRecord} {b b' : Book}
    (commit : w.book.commitPurchase q checked w.now = .ok (record, b))
    (attempt : b.Attempts record r b') : Buys w q (.ok (r.receipt r.status)) b'

/-- A purchase is refused before anything has changed but failures of services
that only look, or it comes to the settlement of what was committed. -/
theorem run_purchase (q : PurchaseRequest) (w : World) : ∃ allowList rateFailures,
    (∃ e, run (Sale.purchase q) w = (.error e, { w with allowList, rateFailures })) ∨
    ∃ checked record b, w.book.commitPurchase q checked w.now = .ok (record, b) ∧
      ∀ status w', run (settle record.purchaseId) { w with allowList, rateFailures, book := b } =
        (.ok status, w') → run (Sale.purchase q) w = (.ok (record.receipt status), w') := by
  obtain ⟨allowList, rateFailures, hchecked⟩ := (Program.onlyLooks_check q).run w
  refine ⟨allowList, rateFailures, ?_⟩
  rw [Sale.purchase, run_bind, hchecked]
  cases (run (Sale.check q) w).1 with
  | error e => exact .inl ⟨e, rfl⟩
  | ok checked =>
      cases hcommit : w.book.commitPurchase q checked w.now with
      | error e =>
          simp only
          rw [run_attempt_error (w := { w with allowList, rateFailures }) hcommit]
          exact .inl ⟨e, rfl⟩
      | ok x =>
          obtain ⟨record, b⟩ := x
          refine .inr ⟨checked, record, b, hcommit, fun status w' hsettle => ?_⟩
          simp only
          rw [run_attempt_ok (w := { w with allowList, rateFailures }) hcommit, run_bind]
          simp only [hsettle]
          rfl

/-- **A purchase is refused and nothing is changed, or it is committed** and put
through an attempt at its settlement, whatever services answer. -/
theorem buys (w : World) (q : PurchaseRequest) :
    w.Buys q (run (Sale.purchase q) w).1 (run (Sale.purchase q) w).2.book := by
  obtain ⟨allowList, rateFailures, ⟨e, hrun⟩ | ⟨checked, record, b, hcommit, hrun⟩⟩ :=
    run_purchase q w
  · rw [hrun]
    exact .refused e
  · obtain ⟨-, hinitial, hpurchases, hterms⟩ := Book.purchases_of_commitPurchase hcommit
    have hrecord : b.purchases.get? record.purchaseId = some record := by
      rw [hpurchases, Directory.get?_insert_self]
    obtain ⟨r, w', hsettle, hattempt⟩ :=
      run_settle (w := { w with allowList, rateFailures, book := b }) hterms hrecord hinitial
    rw [hrun _ _ hsettle]
    have hreceipt : record.receipt r.status = r.receipt r.status := by
      have hid : r.purchaseId = record.purchaseId := congrArg (·.purchaseId) hattempt.filed
      have hplan : r.plan = record.plan := congrArg (·.plan) hattempt.filed
      rw [PurchaseRecord.receipt, PurchaseRecord.receipt, hid, hplan]
    rw [hreceipt]
    exact .committed hcommit hattempt

end World

/-! ## what was sold was issued -/

namespace Services.Books

variable {xs : List Effect} {w w' : World}

/-- An accepted call is entered in the books of the services. -/
theorem perform {x : Effect} (h : Books xs w.services) (hx : w.perform x = (.ok (), w')) :
    Books (xs ++ [x]) w'.services := by
  have hseen := w.sees_serve 0 .finalize (.effect x)
  rw [World.serve, hx] at hseen
  exact h.answer hseen

theorem performAll {ys : List Effect} (h : Books xs w.services)
    (hys : World.performAll ys w = some w') : Books (xs ++ ys) w'.services := by
  induction ys generalizing xs w with
  | nil =>
      cases hys
      rwa [List.append_nil]
  | cons y ys ih =>
      simp only [World.performAll] at hys
      split at hys
      next hy => simpa using ih (h.perform hy) hys
      · contradiction

end Services.Books

/-- The effects that the services have accepted issue what was sold, and nothing else. -/
structure World.Accepted (w : World) (xs : List Effect) : Prop where
  books : Services.Books xs w.services
  issues : ∀ id i n, .issue id i n ∈ xs ↔ ∃ r, w.book.purchases.get? id = some r ∧
    r.beneficiary = i ∧ r.plan.result.tokensAllocated = n

/-- What was sold was issued, and nothing else. -/
def World.HasIssued (w : World) : Prop := ∃ xs, w.Accepted xs

namespace World.Accepted

variable {w : World} {xs : List Effect}

/-- The token ledger holds one issue for each purchase. -/
theorem get?_issuances (h : w.Accepted xs) (id : Uuid) : w.issuance.issuances.get? id =
    (w.book.purchases.get? id).map fun r => (r.beneficiary, r.plan.result.tokensAllocated) := by
  ext ⟨i, n⟩
  rw [← show w.services.issuance = w.issuance from rfl, h.books.issued, h.issues]
  simp

/-- Together the investors hold what was allocated. -/
theorem sum_balances (h : w.Accepted xs) : (w.issuance.balances.sumOf fun _ n => n.val) =
    w.book.purchases.sumOf fun _ r => r.plan.result.tokensAllocated.val := by
  refine h.books.balances.trans (Directory.sumOf_congr fun id => ?_)
  rw [show w.services.issuance = w.issuance from rfl, h.get?_issuances id]
  cases w.book.purchases.get? id <;> rfl

/-- The tokens of a purchase that is committed now can be issued. -/
theorem grants (h : w.Accepted xs) (hb : w.book.Balanced) {r : PurchaseRequest}
    {checked : Book.Checked} {record : PurchaseRecord} {b : Book}
    (hc : w.book.commitPurchase r checked w.now = .ok (record, b)) :
    w.issuance.Grants record.purchaseId record.beneficiary record.plan.result.tokensAllocated := by
  obtain ⟨hplan, -, hfree⟩ := Book.commitPurchase_ok hc
  obtain ⟨-, -, t, ht, -, -, hallocate⟩ := Book.plan_ok hplan
  have hroom := sold_add_lt (hb.built t ht) hallocate
  have hbalance := w.issuance.val_balance_le record.beneficiary
  rw [h.sum_balances, ← hb.sold t ht] at hbalance
  exact .inr ⟨by rw [h.get?_issuances, hfree, Option.map_none], by omega⟩

end World.Accepted

/-! ## a settlement in a reliable world -/

/-- The first attempt at a settlement alone: the whole script. -/
theorem alone_settle {reply : (c : Call) → c.Answer} (hreply : ∀ x, reply (.effect x) = .ok ())
    (now : Instant) {b : Book} {r : PurchaseRecord} (ht : b.terms.isSome)
    (hr : b.purchases.get? r.purchaseId = some r) (hinitial : r.settlement = .initial) :
    ∃ destination b', (settle r.purchaseId).alone reply now b =
      ⟨.ok .complete, b', r.script.map (r.effectOf destination)⟩ := by
  have hflight : r.settlement.inFlight = false := by rw [hinitial]; rfl
  obtain ⟨t, ht⟩ := Option.isSome_iff_exists.1 ht
  have halone := alone_retrySettlement hreply now ht hr
    (PurchaseRecord.isSettled_of_initial hinitial) hflight
  rw [show r.outstandingAt r.settlement = r.script by
    rw [hinitial, PurchaseRecord.outstandingAt_initial]] at halone
  exact ⟨_, _, halone⟩

/-- The script of a purchase issues its tokens, and no others. -/
theorem PurchaseRecord.issue_mem_script_iff {r : PurchaseRecord} {destination : String} {id : Uuid}
    {i : InvestorId} {n : Tokens} : .issue id i n ∈ r.script.map (r.effectOf destination) ↔
      id = r.purchaseId ∧ i = r.beneficiary ∧ n = r.plan.result.tokensAllocated := by
  constructor
  · intro hmem
    obtain ⟨step, -, hstep⟩ := List.mem_map.1 hmem
    have hperforms : r.Performs step (.issue id i n) := hstep ▸ r.performs_effectOf destination step
    exact Effect.issue.inj (hperforms.issue_eq rfl).2
  · rintro ⟨rfl, rfl, rfl⟩
    exact List.mem_map.2 ⟨.issue, by simp [script], rfl⟩

/-- With the script of a purchase that was committed its tokens are issued. -/
theorem World.Accepted.settle {w w' : World} {xs : List Effect} (h : w.Accepted xs)
    {q : PurchaseRequest} {checked : Book.Checked} {record r : PurchaseRecord} {b : Book}
    (hc : w.book.commitPurchase q checked w.now = .ok (record, b))
    (hattempt : b.Attempts record r w'.book) {destination : String}
    (hbooks : Services.Books (xs ++ record.script.map (record.effectOf destination))
      w'.services) :
    w'.Accepted (xs ++ record.script.map (record.effectOf destination)) := by
  obtain ⟨hfree, -, hpurchases, -⟩ := Book.purchases_of_commitPurchase hc
  refine ⟨hbooks, fun id i n => ?_⟩
  rw [List.mem_append, h.issues, PurchaseRecord.issue_mem_script_iff, hattempt.purchases,
    hpurchases, Directory.insert_insert, Directory.get?_insert]
  by_cases hid : id = record.purchaseId
  · subst hid
    have hbeneficiary : r.beneficiary = record.beneficiary := congrArg (·.beneficiary) hattempt.filed
    have hplan : r.plan = record.plan := congrArg (·.plan) hattempt.filed
    simp [hfree, hbeneficiary, hplan, eq_comm]
  · simp [hid]

namespace World

variable {w : World} {xs : List Effect} {record : PurchaseRecord}

/-- **The first attempt at a settlement completes it in a reliable world**, once
its purchase is on record and its tokens can be issued. -/
theorem run_settle_of_reliable (hw : w.Reliable) (hbooks : Services.Books xs w.services)
    (ht : w.book.terms.isSome) (hr : w.book.purchases.get? record.purchaseId = some record)
    (hinitial : record.settlement = .initial)
    (hgrants : w.issuance.Grants record.purchaseId record.beneficiary
      record.plan.result.tokensAllocated) :
    ∃ w' destination, run (settle record.purchaseId) w = (.ok .complete, w') ∧ w'.Reliable ∧
      Services.Books (xs ++ record.script.map (record.effectOf destination)) w'.services := by
  obtain ⟨reply, hreply⟩ := exists_accepting
  obtain ⟨destination, b', halone⟩ := alone_settle hreply w.now ht hr hinitial
  have honly : ∀ x ∈ record.script.map (record.effectOf destination), x.isIssue = true →
      x = .issue record.purchaseId record.beneficiary record.plan.result.tokensAllocated := by
    intro x hx hissue
    obtain ⟨step, -, rfl⟩ := List.mem_map.1 hx
    exact ((record.performs_effectOf destination step).issue_eq hissue).2
  obtain ⟨w', hall, hreliable, -⟩ := performAll_of_grants honly hw hgrants
  have hperformed : performAll ((settle record.purchaseId).alone reply w.now w.book).effects w =
      some w' := by
    rw [halone]
    exact hall
  have hrun := run_eq_alone hreply (Program.callsEffects_settle record.purchaseId) hperformed
  rw [halone] at hrun
  have haccepted : Services.Books _ w'.services := hbooks.performAll hall
  exact ⟨_, destination, hrun, ⟨hreliable.1, hreliable.2, hreliable.3, hreliable.4⟩, haccepted⟩

/-- **In a reliable world a purchase that is committed is settled at once**; what
was sold has been issued after it as before. -/
theorem settles_of_reliable (hw : w.Reliable) (hissued : w.HasIssued) (hb : w.book.Balanced)
    (q : PurchaseRequest) :
    (run (Sale.purchase q) w).2.Reliable ∧ (run (Sale.purchase q) w).2.HasIssued ∧
      ∀ receipt, (run (Sale.purchase q) w).1 = .ok receipt → receipt.settlement = .complete := by
  obtain ⟨xs, hxs⟩ := hissued
  obtain ⟨allowList, rateFailures, ⟨e, hrun⟩ | ⟨checked, record, b, hcommit, hrun⟩⟩ :=
    run_purchase q w
  · rw [hrun]
    exact ⟨⟨hw.issues, hw.forwards, hw.refunds, hw.events⟩, ⟨xs, hxs.books, hxs.issues⟩, nofun⟩
  · obtain ⟨-, hinitial, hpurchases, hterms⟩ := Book.purchases_of_commitPurchase hcommit
    have hrecord : b.purchases.get? record.purchaseId = some record := by
      rw [hpurchases, Directory.get?_insert_self]
    let committed : World := { w with allowList, rateFailures, book := b }
    obtain ⟨w', destination, hsettle, hreliable, hbooks⟩ := run_settle_of_reliable (w := committed)
      ⟨hw.issues, hw.forwards, hw.refunds, hw.events⟩ hxs.books hterms hrecord hinitial
      (hxs.grants hb hcommit)
    obtain ⟨r, w'', hsettle', hattempt⟩ := run_settle (w := committed) hterms hrecord hinitial
    obtain ⟨-, rfl⟩ := Prod.mk.inj (hsettle.symm.trans hsettle')
    rw [hrun _ _ hsettle]
    refine ⟨hreliable, ⟨_, hxs.settle hcommit hattempt hbooks⟩, fun receipt hreceipt => ?_⟩
    cases hreceipt
    rfl

end World

/-! ## the beginning and the end of a sale -/

namespace World

variable {w : World}

/-- A configuration without fault is in force after it was set. -/
theorem run_configure {config : SaleConfig} {specs : List TierSpec} {tiers : TierLedger}
    (hconfig : config.fault? = none) (hspecs : TierLedger.ofSpecs specs = .ok tiers)
    {version : Nat} {b : Book}
    (hchange : w.book.change (.configure config tiers) w.now = .ok (version, b)) :
    run (Sale.configure config specs) w =
      (.ok (), (perform { w with book := b } (.emit (.configChanged "configure" version))).2) := by
  simp only [Sale.configure, hconfig, hspecs, Sale.administer]
  rw [run_attempt_ok hchange]
  simp only
  rw [run_announce]
  rfl

/-- A sale that was finalized has told what was left. -/
theorem run_finalize_ok {unsold : Tokens} (h : (run Sale.finalize w).1 = .ok unsold) :
    ∃ c b, w.book.beginFinalize w.now = .ok (c, b) ∧ unsold = c.unsold ∧
      (run Sale.finalize w).2.book = b.endFinalize true := by
  unfold Sale.finalize at h ⊢
  cases hbegin : w.book.beginFinalize w.now with
  | error e =>
      rw [run_attempt_error hbegin] at h
      contradiction
  | ok x =>
      obtain ⟨c, b⟩ := x
      rw [run_attempt_ok hbegin] at h ⊢
      simp only at h ⊢
      by_cases hzero : c.unsold.isZero = true
      · simp only [hzero, if_true] at h ⊢
        exact ⟨c, b, rfl, (Except.ok.inj h).symm, rfl⟩
      · simp only [hzero, Bool.false_eq_true, if_false] at h ⊢
        rw [run_bind] at h ⊢
        obtain ⟨hbook, -⟩ := serve_book { w with book := b }
          (.effect (.issue (Sale.finalizeId c.saleId) c.treasury c.unsold))
        rw [Program.perform, Program.ask, run_call, run_done] at h ⊢
        generalize serve _ _ = served at h hbook ⊢
        obtain ⟨a, w'⟩ := served
        cases a with
        | error e => contradiction
        | ok u => exact ⟨c, b, rfl, (Except.ok.inj h).symm, congrArg (Book.endFinalize · true) hbook⟩

end World

end TokenSale
