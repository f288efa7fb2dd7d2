import TokenSale.Proofs.ClosingIssue
import TokenSale.Proofs.Readings
import TokenSale.Proofs.Reconciliation

/-!
# TokenSale.Proofs.Conservation

Tokens and money are conserved from end to end.  What the token ledger and the
settlement keep is accounted for by the purchases on record and by the closing
of the sale, however often calls fail and attempts are repeated.

* `Book.Balanced` — tiers and payments agree with the purchases on record;
* `Ledgers` — all that holds of the book, the callers and the services together;
* `Conserves`, `Settled` — tokens and money in every state, and once nothing
  is pending;
* `conserves_of_run` — for every run.
-/

namespace TokenSale

/-! ## the book by itself -/

namespace Book

variable {b b' : Book} {now : Instant}

/-- Tiers and payments agree with the purchases on record. -/
structure Balanced (b : Book) : Prop where
  built : ∀ t, b.terms = some t → t.tiers.Built
  /-- The tiers have sold what the purchases have bought. -/
  sold : ∀ t, b.terms = some t →
    t.tiers.sold = b.purchases.sumOf fun _ r => r.plan.result.tokensAllocated.val
  /-- A payment is what is kept of it and what goes back. -/
  paid : ∀ p ∈ b.filed, p.2.plan.result.fundsConsumed.val + p.2.plan.result.fundsRefunded.val =
    p.2.plan.amount.val

/-- No purchase has the identity under which the unsold tokens are issued. -/
def FinalizeIdFree (b : Book) : Prop :=
  ∀ c, b.config? = some c → b.purchases.get? (Sale.finalizeId c.saleId) = none

instance (b : Book) : Decidable b.FinalizeIdFree :=
  inferInstanceAs (Decidable (∀ c ∈ b.config?, b.purchases.get? (Sale.finalizeId c.saleId) = none))

theorem mem_filed {id : Uuid} {r : PurchaseRecord} (h : b.purchases.get? id = some r) :
    (id, r.filed) ∈ b.filed :=
  List.mem_map_of_mem (f := fun e : Uuid × PurchaseRecord => (e.1, e.2.filed))
    (Directory.get?_eq_some_iff.1 h)

/-- A sum over the purchases as they were filed. -/
theorem sumOf_filed {f : Uuid → PurchaseRecord → Nat} (hf : ∀ id r, f id r.filed = f id r)
    (b : Book) : b.purchases.sumOf f = (b.filed.map fun p => f p.1 p.2).sum := by
  simp [Directory.sumOf, filed, Function.comp_def, hf]

/-- The tokens that the purchases have bought, as a sum over the directory. -/
theorem sumOf_tokens (b : Book) : (b.purchases.sumOf fun _ r => r.plan.result.tokensAllocated.val) =
    tokensOf b.purchases.values := by
  simp [Directory.sumOf, Directory.values, tokensOf, Function.comp_def]

theorem balanced_blank : Book.blank.Balanced := by
  refine ⟨fun t ht => ?_, fun t ht => ?_, by simp [filed, blank, Directory.empty]⟩ <;>
    simp [blank] at ht

/-- Steps that leave the tiers and the records leave the balance. -/
theorem Balanced.of_sealed (h : b.Balanced) (hs : b.Sealed b') : b'.Balanced where
  built := hs.terms ▸ h.built
  sold t ht := by
    rw [sumOf_filed (f := fun _ r => r.plan.result.tokensAllocated.val) (fun _ _ => rfl), hs.filed,
      ← sumOf_filed (f := fun _ r => r.plan.result.tokensAllocated.val) (fun _ _ => rfl)]
    exact h.sold t (hs.terms ▸ ht)
  paid := hs.filed ▸ h.paid

/-- A change of the parameters brings tiers of which nothing is sold. -/
theorem Balanced.of_change (h : b.Balanced) (hfiled : b.filed = []) {o : Operation} {c : Change}
    {version : Nat} (ho : o.change? = some (.ok c)) (hc : b.change c now = .ok (version, b')) :
    b'.Balanced := by
  obtain ⟨-, -, t, limit, overrides, rfl, htiers⟩ := change_ok hc
  have hnone : (b.purchases.sumOf fun _ r => r.plan.result.tokensAllocated.val) = 0 := by
    rw [sumOf_filed (f := fun _ r => r.plan.result.tokensAllocated.val) (fun _ _ => rfl), hfiled]
    rfl
  obtain ⟨hbuilt, hsold⟩ : t.tiers.Built ∧ t.tiers.sold = 0 := by
    cases hl : c.ledger? with
    | some tiers =>
        rw [hl] at htiers
        obtain ⟨specs, hspecs⟩ := specs_of_change? ho hl
        rw [htiers]
        refine ⟨.ofSpecs hspecs, ?_⟩
        obtain ⟨-, rfl⟩ := TierLedger.ofSpecs_ok hspecs
        simp [TierLedger.sold, Tier.fresh, Function.comp_def]
    | none =>
        rw [hl] at htiers
        obtain ⟨t₀, ht₀, heq⟩ := htiers
        rw [heq]
        exact ⟨h.built t₀ ht₀, (h.sold t₀ ht₀).trans hnone⟩
  refine ⟨fun u hu => ?_, fun u hu => ?_, h.paid⟩
  · cases hu
    exact hbuilt
  · cases hu
    exact hsold.trans hnone.symm

/-- The sums of a plan that is committed. -/
theorem adds_of_commitPurchase {r : PurchaseRequest} {checked : Checked} {record : PurchaseRecord}
    (h : b.commitPurchase r checked now = .ok (record, b')) :
    record.plan.Adds (input r checked) := by
  obtain ⟨-, -, t, -, -, -, hallocate⟩ := plan_ok (commitPurchase_ok h).1
  exact allocate_adds hallocate

/-- **A purchase keeps the balance of the book.** -/
theorem Balanced.of_commitPurchase (h : b.Balanced) {r : PurchaseRequest} {checked : Checked}
    {record : PurchaseRecord} (hc : b.commitPurchase r checked now = .ok (record, b')) :
    b'.Balanced := by
  have hadds := adds_of_commitPurchase hc
  obtain ⟨-, hrecord, hfree⟩ := commitPurchase_ok hc
  obtain ⟨-, -, hpurchases, -⟩ := purchases_of_commitPurchase hc
  obtain ⟨t, tiers, caps, unitsRaised, fundsRaised, tokensByCurrency, id, nextSeq, ht, hcommit, -,
    -, -, -, -, rfl⟩ := recordPlan_ok hrecord
  have hfills := (commitFills_of_commitPlan hcommit).1
  simp only at hpurchases
  refine ⟨fun u hu => ?_, fun u hu => ?_, fun p hp => ?_⟩
  · cases hu
    exact (h.built t ht).commitFills hfills
  · cases hu
    have hinsert := b.purchases.sumOf_insert record.purchaseId record fun _ r =>
      r.plan.result.tokensAllocated.val
    rw [hfree, Option.elim_none, Nat.add_zero] at hinsert
    simp only [hpurchases]
    rw [hinsert, commitFills_sold hfills, h.sold t ht, hadds.tokens]
  · obtain ⟨⟨k, x⟩, hx, rfl⟩ := List.mem_map.1 hp
    simp only [hpurchases] at hx
    obtain heq | hx := Directory.mem_place hx
    · cases heq
      have hfunds := hadds.funds
      rw [← hadds.amount] at hfunds
      exact hfunds
    · exact h.paid _ (List.mem_map_of_mem hx)

end Book

/-- Every step of a run under a forward clock keeps the balance of the book. -/
theorem Tracked.Step.balanced {g g' : Tracked} {e : Event} (h : g.book.Balanced)
    (hr : g.Reconciles) (hs : Tracked.Step Forward g e g') : g'.book.Balanced := by
  cases hs with
  | tick | begin | answer | finish => exact h
  | lock hs =>
      obtain hsealed | ⟨c, version, ho, hc⟩ | ⟨r, checked, record, -, hc⟩ := hs.book_cases
      · exact h.of_sealed hsealed
      · have hfiled : g.book.filed = [] :=
          by_contra fun hne => (Book.change_ok hc).1 (hr.opened hne)
        exact h.of_change hfiled ho hc
      · exact h.of_commitPurchase hc

/-- The book of every sale that is reached reconciles and balances. -/
theorem Run.reconciles_balanced {t : Instant} {es : List Event} {s : System}
    (h : Run Forward (.start t) es s) : s.book.Reconciles ∧ s.book.Balanced := by
  obtain ⟨g, ⟨hr, hb⟩, hbook, -⟩ := h.invariant (P := fun _ g => g.Reconciles ∧ g.book.Balanced)
    ⟨⟨Book.reconciles_blank, fun hne => absurd rfl hne⟩, Book.balanced_blank⟩
    fun hg hs => ⟨hs.reconciles hg.1, hs.balanced hg.2 hg.1⟩
  exact hbook ▸ ⟨hr.book, hb⟩

/-! ## requests and records -/

/-- The record was filed for the request. -/
structure PurchaseRecord.FiledFor (r : PurchaseRecord) (q : PurchaseRequest) : Prop where
  buyer : r.buyer = q.buyer
  beneficiary : r.beneficiary = q.recipient
  amount : r.plan.amount = q.amount

/-- A committed purchase is filed for its request. -/
theorem Book.filedFor_of_commitPurchase {b b' : Book} {now : Instant} {q : PurchaseRequest}
    {checked : Book.Checked} {record : PurchaseRecord}
    (h : b.commitPurchase q checked now = .ok (record, b')) : record.FiledFor q := by
  have hadds := adds_of_commitPurchase h
  obtain ⟨t, tiers, caps, unitsRaised, fundsRaised, tokensByCurrency, id, nextSeq, -, -, -, -, -,
    -, hnew, -⟩ := recordPlan_ok (commitPurchase_ok h).2.1
  exact ⟨by rw [hnew]; rfl, by rw [hnew]; rfl, hadds.amount⟩

/-- Every record was filed for a request that a caller has made, and every
operation under way was begun. -/
structure Requested (es : List Event) (s : System) : Prop where
  begun : ∀ i x, s.sessions i = some x → .begin i x.operation ∈ es
  records : ∀ p ∈ s.book.filed, ∃ i q, .begin i (.purchase q) ∈ es ∧ p.2.FiledFor q

namespace Requested

variable {es : List Event} {s s' : System} {e : Event}

/-- A caller goes on with what it has begun, or stops. -/
theorem withSession {i : Nat} {x : Option Session} {b : Book} (h : Requested es s)
    (hx : ∀ y, x = some y → .begin i y.operation ∈ es ++ [e])
    (hb : ∀ p ∈ b.filed, p ∈ s.book.filed ∨
      ∃ i q, .begin i (.purchase q) ∈ es ++ [e] ∧ p.2.FiledFor q) :
    Requested (es ++ [e]) { s.withSession i x with book := b } where
  begun j y hy := by
    by_cases hji : j = i
    · subst hji
      exact hx y (by simpa [System.withSession] using hy)
    · refine List.mem_append_left _ (h.begun j y ?_)
      simpa [System.withSession, hji] using hy
  records p hp := by
    obtain hold | hnew := hb p hp
    · obtain ⟨i, q, hbegun, hfor⟩ := h.records p hold
      exact ⟨i, q, List.mem_append_left _ hbegun, hfor⟩
    · exact hnew

/-- Each step keeps every record traced back to a request. -/
theorem step {clock : Instant → Instant → Prop} {g : Tracked} (h : Requested es s)
    (hg : g.Tracks s) (hs : Step clock s e s') : Requested (es ++ [e]) s' := by
  have hgoes {i : Nat} {o : Operation} {p : Program o.Result} (hi : s.sessions i = some ⟨o, p⟩) :
      .begin i o ∈ es ++ [e] := List.mem_append_left _ (h.begun i _ hi)
  cases hs with
  | tick hle =>
      refine ⟨fun i x hi => hgoes hi, fun p hp => ?_⟩
      obtain ⟨i, q, hbegun, hfor⟩ := h.records p hp
      exact ⟨i, q, List.mem_append_left _ hbegun, hfor⟩
  | @begin i o hi =>
      refine h.withSession (b := s.book) ?_ fun p hp => .inl hp
      rintro y ⟨⟩
      simp
  | @lock i o f k hi =>
      refine h.withSession ?_ fun p hp => ?_
      · rintro y ⟨⟩
        exact hgoes hi
      · obtain ⟨h', hstep, -⟩ := hg.session hi s.book s.now
        obtain hsealed | ⟨c, version, -, hc⟩ | ⟨q, checked, record, rfl, hc⟩ := hstep.book_cases
        · exact .inl (hsealed.filed ▸ hp)
        · obtain ⟨-, -, t, limit, overrides, hb, -⟩ := Book.change_ok hc
          exact .inl (by simpa [hb, Book.filed] using hp)
        · obtain ⟨-, -, hpurchases, -⟩ := Book.purchases_of_commitPurchase hc
          obtain ⟨⟨id, x⟩, hx, rfl⟩ := List.mem_map.1 hp
          rw [hpurchases] at hx
          obtain heq | hx := Directory.mem_place hx
          · cases heq
            have hfor := Book.filedFor_of_commitPurchase hc
            exact .inr ⟨i, q, hgoes hi, hfor.buyer, hfor.beneficiary, hfor.amount⟩
          · exact .inl (List.mem_map_of_mem hx)
  | @answer i o c k a hi =>
      refine h.withSession (b := s.book) ?_ fun p hp => .inl hp
      rintro y ⟨⟩
      exact hgoes hi
  | @finish i o result hi =>
      exact h.withSession (b := s.book) (fun y hy => by contradiction) fun p hp => .inl hp

end Requested

/-- **Every record was filed for a request that a caller has made.** -/
theorem Run.requested {clock : Instant → Instant → Prop} {t : Instant} {es : List Event}
    {s : System} (h : Run clock (.start t) es s) : Requested es s := by
  induction h with
  | refl =>
      refine ⟨fun i x hi => by simp [System.start] at hi, fun p hp => ?_⟩
      simp [System.start, Book.filed, Book.blank, Directory.empty] at hp
  | step h₁ hs ih =>
      obtain ⟨g, -, hg⟩ := h₁.tracked (Tracked.tracks_start t)
      exact ih.step hg hs

/-! ## what has landed -/

/-- The tokens that an effect issues. -/
def Effect.tokensIssued : Effect → Nat
  | issue _ _ amount => amount.val
  | _ => 0

/-- Whether tokens were issued on behalf of a purchase. -/
def issuedFor (es : List Event) (id : Uuid) : Bool := (accepted id es).any Effect.isIssue

/-- Whether a payment was passed on on behalf of a purchase. -/
def forwardedFor (es : List Event) (id : Uuid) : Bool := (accepted id es).any Effect.isForward

/-- The tokens that were issued to finalize the sale. -/
def unsoldIssued (es : List Event) : Nat := ((closingIssues es).map Effect.tokensIssued).sum

namespace Account

variable {es : List Event} {g : Tracked} {id : Uuid} {r : PurchaseRecord}

/-- What was accepted on behalf of a purchase is one of its steps. -/
theorem mem_accepted (h : Account es g id) {x : Effect} (hx : x ∈ accepted id es) :
    ∃ r step, g.book.purchases.get? id = some r ∧ r.purchaseId = id ∧ step ∈ r.script ∧
      r.Performs step x := by
  cases hr : g.book.purchases.get? id with
  | none => simp [h.accepted_eq_nil hr] at hx
  | some r =>
      obtain ⟨own, -, kept, landed, hlands⟩ := h.lands hr
      obtain ⟨step, hstep, hperforms⟩ := exists_of_forall₂ hlands.performs hx
      exact ⟨r, step, rfl, own, hlands.inOrder.subset hstep, hperforms⟩

/-- Tokens are issued on behalf of a purchase as it says. -/
theorem issue_eq (h : Account es g id) {x : Effect} (hx : x ∈ accepted id es)
    (hissue : x.isIssue = true) : ∃ r, g.book.purchases.get? id = some r ∧
      x = .issue id r.beneficiary r.plan.result.tokensAllocated := by
  obtain ⟨r, step, hr, rfl, -, hperforms⟩ := h.mem_accepted hx
  exact ⟨r, hr, (hperforms.issue_eq hissue).2⟩

/-- So are payments passed on. -/
theorem forward_eq (h : Account es g id) {x : Effect} (hx : x ∈ accepted id es)
    (hforward : x.isForward = true) : ∃ r destination, g.book.purchases.get? id = some r ∧
      x = .forward id r.plan.currency r.plan.result.fundsConsumed destination := by
  obtain ⟨r, step, hr, rfl, -, hperforms⟩ := h.mem_accepted hx
  have hstep : step = .forward := by simpa [hforward] using hperforms.isForward
  subst hstep
  obtain ⟨destination, rfl⟩ := hperforms
  exact ⟨r, destination, hr, rfl⟩

/-- And refunded, if there is something to refund. -/
theorem refund_eq (h : Account es g id) {x : Effect} (hx : x ∈ accepted id es)
    (hrefund : x.isRefund = true) : ∃ r, g.book.purchases.get? id = some r ∧
      r.hasRefund = true ∧ x = .refund id r.plan.currency r.plan.result.fundsRefunded r.buyer := by
  obtain ⟨r, step, hr, rfl, hscript, hperforms⟩ := h.mem_accepted hx
  have hstep : step = .refund := by simpa [hrefund] using hperforms.isRefund
  subst hstep
  refine ⟨r, hr, ?_, hperforms⟩
  by_contra hnone
  simp [PurchaseRecord.script, hnone] at hscript

end Account

/-! ## the book, the callers and the services together -/

/-- All that holds of a sale with services in memory. -/
structure Ledgers (es : List Event) (g : Tracked) (v : Services) : Prop where
  account : ∀ id, Account es g id
  finalization : Finalization es g
  closing : ClosingIssued es g
  attributed : Attributed es
  reconciles : g.Reconciles
  balanced : g.book.Balanced
  books : v.Books (effectsOf es)

/-- **Every served run leaves an account of what each ledger holds.** -/
theorem ServedRun.ledgers {t : Instant} {es : List Event} {s : System} {v : Services}
    (h : ServedRun Forward (.start t) .empty es s v) : ∃ g, Ledgers es g v ∧ g.Tracks s := by
  refine h.invariant (P := Ledgers) ?_ (fun hl hs hv => ?_) fun hl hv => ?_
  · refine ⟨fun id => .absent rfl nofun rfl, .pending (fun _ => rfl) ⟨rfl, rfl⟩ rfl, ?_, ?_,
      ⟨Book.reconciles_blank, fun hne => absurd rfl hne⟩, Book.balanced_blank, .empty⟩
    · refine ⟨nofun, nofun, fun _ => rfl, fun hissued => ?_⟩
      obtain hf | ⟨i, c, hi⟩ := hissued <;> contradiction
    · intro x id hid
      simp [effectsOf, accepted, closingIssues]
  · exact ⟨hs.account hl.account, hs.finalization hl.finalization,
      hs.closingIssued hl.finalization hl.closing, hl.attributed.step hs,
      hs.reconciles hl.reconciles, hs.balanced hl.balanced hl.reconciles, hl.books.step hv⟩
  · exact { hl with books := hl.books.rig hv }

namespace Ledgers

variable {es : List Event} {g : Tracked} {v : Services} {id : Uuid}

/-- The token ledger holds an issue exactly if the call for it was accepted. -/
theorem issue_iff (h : Ledgers es g v) (hclosing : ∀ i n, .issue id i n ∉ closingIssues es)
    (i : InvestorId) (n : Tokens) :
    v.issuance.issuances.get? id = some (i, n) ↔ .issue id i n ∈ accepted id es := by
  rw [h.books.issued, h.attributed _ id rfl, or_iff_left (hclosing i n)]

/-- Under the identity of a purchase its tokens are issued, and nothing else. -/
theorem issued (h : Ledgers es g v) (hclosing : ∀ i n, .issue id i n ∉ closingIssues es) :
    ((v.issuance.issuances.get? id).elim 0 fun p => p.2.val) =
      (g.book.purchases.get? id).elim 0 fun r =>
        if issuedFor es id then r.plan.result.tokensAllocated.val else 0 := by
  cases hget : v.issuance.issuances.get? id with
  | some p =>
      obtain ⟨i, n⟩ := p
      have hmem := (h.issue_iff hclosing i n).1 hget
      obtain ⟨r, hr, heq⟩ := (h.account id).issue_eq hmem rfl
      have hissued : issuedFor es id = true := List.any_eq_true.2 ⟨_, hmem, rfl⟩
      rw [Effect.issue.injEq] at heq
      simp [hr, hissued, heq.2.2]
  | none =>
      have hissued : issuedFor es id = false := by
        rw [← Bool.not_eq_true, issuedFor, List.any_eq_true]
        rintro ⟨x, hx, hissue⟩
        obtain ⟨r, -, rfl⟩ := (h.account id).issue_eq hx hissue
        rw [(h.issue_iff hclosing _ _).2 hx] at hget
        contradiction
      cases g.book.purchases.get? id <;> simp [hissued]

/-- There is one closing issue at most, of the unsold tokens to the treasury. -/
theorem mem_closingIssues (h : Ledgers es g v) {x : Effect} (hx : x ∈ closingIssues es) :
    ∃ c, g.book.closing? = some c ∧ x = .issue (Sale.finalizeId c.saleId) c.treasury c.unsold ∧
      closingIssues es = [x] := by
  by_cases hissued : g.HasIssued
  · obtain ⟨c, hc, hissues⟩ := h.closing.after hissued
    rw [hissues, Book.Closing.issues] at hx ⊢
    split at hx
    · contradiction
    next hz =>
      rw [List.mem_singleton] at hx
      exact ⟨c, hc, hx, by rw [if_neg hz, hx]⟩
  · rw [h.closing.before hissued] at hx
    contradiction

/-- A payment that is kept was passed on on behalf of its purchase. -/
theorem forward_some (h : Ledgers es g v) {t : Transfer}
    (ht : v.transfers.forwards.get? id = some t) :
    ∃ r, g.book.purchases.get? id = some r ∧ forwardedFor es id = true ∧
      t.currency = r.plan.currency ∧ t.amount = r.plan.result.fundsConsumed := by
  obtain ⟨rfl, x, hx, rfl⟩ := h.books.forwarded.kept id t ht
  obtain hmem | hmem := (h.attributed _ t.purchaseId rfl).1 hx
  · obtain ⟨r, destination, hr, heq⟩ := (h.account _).forward_eq hmem rfl
    rw [Effect.forward.injEq] at heq
    exact ⟨r, hr, List.any_eq_true.2 ⟨_, hmem, rfl⟩, heq.2.1, heq.2.2.1⟩
  · obtain ⟨c, -, heq, -⟩ := h.mem_closingIssues hmem
    contradiction

/-- A payment that the ledger does not hold was not forwarded. -/
theorem forward_none (h : Ledgers es g v) (hnone : v.transfers.forwards.get? id = none) :
    forwardedFor es id = false := by
  rw [← Bool.not_eq_true, forwardedFor, List.any_eq_true]
  rintro ⟨x, hx, hforward⟩
  obtain ⟨r, destination, hr, rfl⟩ := (h.account id).forward_eq hx hforward
  have hsome := h.books.forwarded.accepted
    ⟨id, r.plan.currency, r.plan.result.fundsConsumed, destination⟩ _
    ((h.attributed _ id rfl).2 (.inl hx)) rfl
  rw [hnone] at hsome
  contradiction

/-- A refund that is kept was made on behalf of its purchase. -/
theorem refund_some (h : Ledgers es g v) {t : Transfer}
    (ht : v.transfers.refunds.get? id = some t) :
    ∃ r, g.book.purchases.get? id = some r ∧ r.hasRefund = true ∧
      t.currency = r.plan.currency ∧ t.amount = r.plan.result.fundsRefunded ∧
      t.counterparty = r.buyer.name := by
  obtain ⟨rfl, x, hx, investor, hname, rfl⟩ := h.books.refunded.kept id t ht
  obtain hmem | hmem := (h.attributed _ t.purchaseId rfl).1 hx
  · obtain ⟨r, hr, hrefund, heq⟩ := (h.account _).refund_eq hmem rfl
    rw [Effect.refund.injEq] at heq
    exact ⟨r, hr, hrefund, heq.2.1, heq.2.2.1, by rw [← hname, heq.2.2.2]⟩
  · obtain ⟨c, -, heq, -⟩ := h.mem_closingIssues hmem
    contradiction

/-- What was refunded to the buyer of a settled purchase is what is to be refunded. -/
theorem refund_of_isSettled (h : Ledgers es g v) {r : PurchaseRecord}
    (hr : g.book.purchases.get? id = some r) (hsettled : r.isSettled = true) :
    ((v.transfers.refunds.get? id).elim 0 fun t => t.amount.val) =
      r.plan.result.fundsRefunded.val := by
  cases ht : v.transfers.refunds.get? id with
  | some t =>
      obtain ⟨r', hr', -, -, hamount, -⟩ := h.refund_some ht
      rw [hr, Option.some.injEq] at hr'
      subst hr'
      rw [Option.elim_some, hamount]
  | none =>
      by_cases hrefund : r.hasRefund = true
      · have heffects := (h.account id).performs_script hr hsettled
        have hlanded : (accepted id es).any Effect.isRefund = true := by
          rw [any_of_forall₂ heffects fun step x hstep => hstep.isRefund]
          simp [PurchaseRecord.script, hrefund]
        obtain ⟨x, hx, hisRefund⟩ := List.any_eq_true.1 hlanded
        obtain ⟨r', hr', -, rfl⟩ := (h.account id).refund_eq hx hisRefund
        have hsome := h.books.refunded.accepted
          ⟨id, r'.plan.currency, r'.plan.result.fundsRefunded, r'.buyer.name⟩ _
          ((h.attributed _ id rfl).2 (.inl hx)) ⟨r'.buyer, rfl, rfl⟩
        rw [ht] at hsome
        contradiction
      · have hzero : r.plan.result.fundsRefunded.val = 0 := by
          simpa [PurchaseRecord.hasRefund] using hrefund
        exact hzero.symm

/-- What was passed on of the payment for a settled purchase is what is kept of it. -/
theorem forward_of_isSettled (h : Ledgers es g v) {r : PurchaseRecord}
    (hr : g.book.purchases.get? id = some r) (hsettled : r.isSettled = true) :
    ((v.transfers.forwards.get? id).elim 0 fun t => t.amount.val) =
      r.plan.result.fundsConsumed.val := by
  cases ht : v.transfers.forwards.get? id with
  | some t =>
      obtain ⟨r', hr', -, -, hamount⟩ := h.forward_some ht
      rw [hr, Option.some.injEq] at hr'
      subst hr'
      rw [Option.elim_some, hamount]
  | none =>
      have heffects := (h.account id).performs_script hr hsettled
      have hlanded : forwardedFor es id = true := by
        rw [forwardedFor, any_of_forall₂ heffects fun step x hstep => hstep.isForward]
        simp [PurchaseRecord.script]
      rw [h.forward_none ht] at hlanded
      contradiction

/-! ## what was issued for the closing -/

theorem sum_issues (c : Book.Closing) : (c.issues.map Effect.tokensIssued).sum = c.unsold.val := by
  rw [Book.Closing.issues]
  split
  next hz => exact (Quantity.isZero_iff.1 hz).symm
  · simp [Effect.tokensIssued]

theorem unsold_of_closing? {b : Book} {c : Book.Closing} (h : b.closing? = some c) :
    c.unsold = b.totalRemaining := by
  obtain ⟨t, ht, rfl⟩ := Option.map_eq_some_iff.1 h
  simp [Book.totalRemaining, ht]

/-- Once issued, the unsold tokens are all that remains of the tiers. -/
theorem unsoldIssued_of_hasIssued (h : Ledgers es g v) (hissued : g.HasIssued) :
    unsoldIssued es = g.book.totalRemaining.val := by
  obtain ⟨c, hc, hissues⟩ := h.closing.after hissued
  rw [unsoldIssued, hissues, sum_issues, unsold_of_closing? hc]

theorem unsoldIssued_of_not_hasIssued (h : Ledgers es g v) (hissued : ¬ g.HasIssued) :
    unsoldIssued es = 0 := by
  rw [unsoldIssued, h.closing.before hissued]
  rfl

theorem unsoldIssued_le (h : Ledgers es g v) : unsoldIssued es ≤ g.book.totalRemaining.val := by
  by_cases hissued : g.HasIssued
  · exact Nat.le_of_eq (h.unsoldIssued_of_hasIssued hissued)
  · rw [h.unsoldIssued_of_not_hasIssued hissued]
    exact Nat.zero_le _

/-- A sale that is neither finalized nor finalizing has not issued what was unsold.
-/
theorem not_hasIssued_of_flags (h : Ledgers es g v)
    (hflags : g.book.finalized = false ∧ g.book.finalizing = false) : ¬ g.HasIssued := by
  rintro (hf | ⟨i, c, hi⟩)
  · rw [hflags.1] at hf
    contradiction
  · have hnone := h.finalization.closing?_of_flags hflags i
    simp [hi, Holding.closing?] at hnone

/-! ## sums -/

/-- All balances together. -/
theorem sum_balances (h : Ledgers es g v) (hfree : g.book.FinalizeIdFree) :
    (v.issuance.balances.sumOf fun _ n => n.val) =
      (g.book.purchases.sumOf fun id r =>
        if issuedFor es id then r.plan.result.tokensAllocated.val else 0) + unsoldIssued es := by
  rw [h.books.balances]
  cases hclosing : closingIssues es with
  | nil =>
      have hzero : unsoldIssued es = 0 := by simp [unsoldIssued, hclosing]
      rw [hzero, Nat.add_zero]
      exact Directory.sumOf_congr fun id => h.issued (by simp [hclosing])
  | cons x xs =>
      have hx : x ∈ closingIssues es := by simp [hclosing]
      obtain ⟨c, hc, rfl, honly⟩ := h.mem_closingIssues hx
      obtain ⟨t, ht, rfl⟩ := Option.map_eq_some_iff.1 hc
      have hnone := hfree t.config (by simp [Book.config?, ht])
      refine Directory.sumOf_eq_add (j := Sale.finalizeId t.config.saleId) fun id => ?_
      by_cases hid : id = Sale.finalizeId t.config.saleId
      · -- nothing but the closing is issued under this identity
        subst hid
        have hget := (h.books.issued _ _ _).2 ((h.attributed _ _ rfl).2 (.inr hx))
        have hsum : unsoldIssued es = t.tiers.totalRemaining.val := by
          simp [unsoldIssued, honly, Effect.tokensIssued]
        simp [hget, hnone, hsum]
      · rw [if_neg hid, Nat.add_zero]
        exact h.issued (by simp [honly, hid])

/-- A sale without parameters has no purchases. -/
theorem get?_of_terms_eq_none (h : Ledgers es g v) (hterms : g.book.terms = none) (id : Uuid) :
    g.book.purchases.get? id = none := by
  cases h.account id with
  | absent record => exact record
  | resting record own configured | underway record own configured =>
      rw [hterms] at configured
      contradiction

theorem sumOf_tokens_eq_zero (h : Ledgers es g v) (hterms : g.book.terms = none) :
    (g.book.purchases.sumOf fun _ r => r.plan.result.tokensAllocated.val) = 0 := by
  have hempty : (g.book.purchases.sumOf fun _ r => r.plan.result.tokensAllocated.val) =
      (Directory.empty : Directory Uuid PurchaseRecord).sumOf fun _ _ => 0 :=
    Directory.sumOf_congr fun id => by simp [h.get?_of_terms_eq_none hterms id]
  rw [hempty, Directory.sumOf_empty]

/-- What was issued for purchases is part of what they were allocated. -/
theorem sum_issued_le (es : List Event) (b : Book) : (b.purchases.sumOf fun id r =>
    if issuedFor es id then r.plan.result.tokensAllocated.val else 0) ≤
    b.purchases.sumOf fun _ r => r.plan.result.tokensAllocated.val :=
  Directory.sumOf_le fun id r _ => by split <;> omega

/-- What was sold and what is left fit together. -/
theorem sold_add_remaining_lt (h : Ledgers es g v) :
    (g.book.purchases.sumOf fun _ r => r.plan.result.tokensAllocated.val) +
      g.book.totalRemaining.val < Quantity.limit := by
  cases ht : g.book.terms with
  | some t =>
      have hremaining := (h.balanced.built t ht).val_totalRemaining
      have htotal : g.book.totalRemaining = t.tiers.totalRemaining := by
        simp [Book.totalRemaining, ht]
      rw [← h.balanced.sold t ht, htotal, hremaining]
      exact (h.balanced.built t ht).offered_lt
  | none =>
      simp only [h.sumOf_tokens_eq_zero ht, Book.totalRemaining, ht]
      decide

/-- All balances fit: no more is issued than there is on sale. -/
theorem sum_balances_lt (h : Ledgers es g v) (hfree : g.book.FinalizeIdFree) :
    (v.issuance.balances.sumOf fun _ n => n.val) < Quantity.limit := by
  rw [h.sum_balances hfree]
  have hunsold := h.unsoldIssued_le
  have hlt := h.sold_add_remaining_lt
  have hissued := sum_issued_le es g.book
  omega

/-- **The total of the token ledger is the sum of its balances.** -/
theorem val_total (h : Ledgers es g v) (hfree : g.book.FinalizeIdFree) :
    v.issuance.total.val = v.issuance.balances.sumOf fun _ n => n.val := by
  have hsum : (v.issuance.balances.values.map Quantity.val).sum =
      v.issuance.balances.sumOf fun _ n => n.val := by
    simp [Directory.values, Directory.sumOf, Function.comp_def]
  rw [Issuance.total, Quantity.val_total (hsum ▸ h.sum_balances_lt hfree), hsum]

/-- What was raised in a currency, purchase by purchase. -/
theorem sum_fundsRaised (h : Ledgers es g v) (c : Currency) :
    sumIn g.book.fundsRaised c = g.book.purchases.sumOf fun _ r =>
      if r.plan.currency = c then r.plan.result.fundsConsumed.val else 0 := by
  rw [h.reconciles.book.fundsRaised c, fundsOf, paidIn, Directory.sum_filter_values]
  simp

/-- All that was passed on in a currency. -/
theorem val_forwardedTotal (h : Ledgers es g v) (c : Currency) :
    (v.transfers.forwardedTotal c).val = g.book.purchases.sumOf fun id r =>
      if forwardedFor es id = true ∧ r.plan.currency = c then r.plan.result.fundsConsumed.val
      else 0 := by
  have hsum : (((v.transfers.forwards.values.filter fun t => t.currency = c).map
      Transfer.amount).map Quantity.val).sum = g.book.purchases.sumOf fun id r =>
        if forwardedFor es id = true ∧ r.plan.currency = c then r.plan.result.fundsConsumed.val
        else 0 := by
    rw [List.map_map, Directory.sum_filter_values]
    refine Directory.sumOf_congr fun id => ?_
    cases ht : v.transfers.forwards.get? id with
    | some t =>
        obtain ⟨r, hr, hforwarded, hcurrency, hamount⟩ := h.forward_some ht
        simp [hr, hforwarded, hcurrency, hamount]
    | none => cases g.book.purchases.get? id <;> simp [h.forward_none ht]
  have hle : (g.book.purchases.sumOf fun id r =>
      if forwardedFor es id = true ∧ r.plan.currency = c then r.plan.result.fundsConsumed.val
      else 0) ≤ sumIn g.book.fundsRaised c := by
    rw [h.sum_fundsRaised c]
    refine Directory.sumOf_le fun id r _ => ?_
    by_cases hc : r.plan.currency = c
    · simp only [hc, and_true, if_true]
      split <;> omega
    · simp [hc]
  have hlt : sumIn g.book.fundsRaised c < Quantity.limit := Quantity.val_lt _
  rw [Transfers.forwardedTotal, Quantity.val_total (by omega), hsum]

end Ledgers

/-! ## every run -/

/-- Tokens and money in any state of a sale, `es` being what happened until then. -/
structure Conserves (es : List Event) (b : Book) (v : Services) : Prop where
  /-- All balances together are the tokens issued on behalf of purchases and
  what was issued to finalize the sale. -/
  balances : (v.issuance.balances.sumOf fun _ n => n.val) =
    (b.purchases.sumOf fun id r =>
      if issuedFor es id then r.plan.result.tokensAllocated.val else 0) + unsoldIssued es
  /-- That is all that is unsold once the sale is finalized, -/
  finalized : b.finalized = true → unsoldIssued es = b.totalRemaining.val
  /-- and nothing as long as nobody has begun to finalize it. -/
  unfinalized : b.finalized = false ∧ b.finalizing = false → unsoldIssued es = 0
  /-- What was passed on in a currency is what is kept of the payments passed on. -/
  forwarded : ∀ c, (v.transfers.forwardedTotal c).val = b.purchases.sumOf fun id r =>
    if forwardedFor es id = true ∧ r.plan.currency = c then r.plan.result.fundsConsumed.val else 0
  /-- Every refund is what is not kept of the payment, and goes back to the buyer. -/
  refunded : ∀ id t, v.transfers.refunds.get? id = some t →
    ∃ r, b.purchases.get? id = some r ∧ t.currency = r.plan.currency ∧
      t.counterparty = r.buyer.name ∧
      t.amount.val + r.plan.result.fundsConsumed.val = r.plan.amount.val
  /-- Between attempts the records tell what has landed. -/
  recorded : ∀ id r, b.purchases.get? id = some r → r.settlement.inFlight = false →
    r.settlement.issued = issuedFor es id ∧ r.settlement.forwarded = forwardedFor es id

/-- Tokens and money once no settlement is pending. -/
structure Settled (es : List Event) (b : Book) (now : Instant) (v : Services) : Prop where
  /-- Everything that was sold was issued; nothing else, until the sale is closed. -/
  issued : v.issuance.total.val = (b.stats now).tokensSold.val + unsoldIssued es
  /-- Once it is finalized, everything that was on sale. -/
  capacity : b.finalized = true →
    v.issuance.total.val = (b.tiers.map fun t => t.spec.totalCapacity.val).sum
  /-- Everything that was raised was passed on. -/
  forwarded : ∀ c, (v.transfers.forwardedTotal c).val = sumIn (b.stats now).fundsRaised c
  /-- What was passed on and what went back are together what a buyer has paid. -/
  paid : ∀ id r, b.purchases.get? id = some r →
    ∃ i q, .begin i (.purchase q) ∈ es ∧ r.FiledFor q ∧
      ((v.transfers.forwards.get? id).elim 0 fun t => t.amount.val) +
        ((v.transfers.refunds.get? id).elim 0 fun t => t.amount.val) = q.amount.val

namespace Ledgers

variable {es : List Event} {g : Tracked} {v : Services}

/-- **The ledgers hold what the accepted purchases and the end of the sale put
there.** -/
theorem conserves (h : Ledgers es g v) (hfree : g.book.FinalizeIdFree) :
    Conserves es g.book v where
  balances := h.sum_balances hfree
  finalized hf := h.unsoldIssued_of_hasIssued (.inl hf)
  unfinalized hflags := h.unsoldIssued_of_not_hasIssued (h.not_hasIssued_of_flags hflags)
  forwarded := h.val_forwardedTotal
  refunded id t ht := by
    obtain ⟨r, hr, -, hcurrency, hamount, hbuyer⟩ := h.refund_some ht
    have hpaid := h.balanced.paid _ (Book.mem_filed hr)
    refine ⟨r, hr, hcurrency, hbuyer, ?_⟩
    rw [hamount, Nat.add_comm]
    exact hpaid
  recorded id r hr hflight := by
    obtain ⟨own, configured, free, landed, stored, effects⟩ := (h.account id).of_resting hr hflight
    have hflags := stored.describes
    rw [issuedFor, any_of_forall₂ effects fun step x hstep => hstep.isIssue, forwardedFor,
      any_of_forall₂ effects fun step x hstep => hstep.isForward]
    constructor
    · rw [Bool.eq_iff_iff, hflags.issued]
      simp
    · rw [Bool.eq_iff_iff, hflags.forwarded]
      simp

/-- The tokens sold, purchase by purchase. -/
theorem val_tokensSold (h : Ledgers es g v) (now : Instant) :
    (g.book.stats now).tokensSold.val =
      g.book.purchases.sumOf fun _ r => r.plan.result.tokensAllocated.val := by
  unfold Book.stats
  cases ht : g.book.terms with
  | some t =>
      simp only [Option.map_some, Option.getD_some]
      rw [(h.balanced.built t ht).val_totalSold, h.balanced.sold t ht]
  | none =>
      rw [h.sumOf_tokens_eq_zero ht]
      rfl

/-- A finalized sale has sold or sent to its treasury everything on sale. -/
theorem sum_capacity (h : Ledgers es g v) (hf : g.book.finalized = true) (now : Instant) :
    (g.book.stats now).tokensSold.val + unsoldIssued es =
      (g.book.tiers.map fun t => t.spec.totalCapacity.val).sum := by
  obtain ⟨t, ht, -⟩ := Book.state_eq_closed_iff.1 (h.finalization.closed_of_finalized hf)
  have hremaining := (h.balanced.built t ht).val_totalRemaining
  have htotal : g.book.totalRemaining = t.tiers.totalRemaining := by
    simp [Book.totalRemaining, ht]
  rw [h.unsoldIssued_of_hasIssued (.inl hf), h.val_tokensSold now, ← h.balanced.sold t ht, htotal,
    hremaining, Book.tiers_eq ht]
  rfl

/-- With no purchase pending, the ledgers hold what the book has promised. -/
theorem settled (h : Ledgers es g v) (hfree : g.book.FinalizeIdFree) {s : System}
    (hs : Requested es s) (hbook : g.book = s.book) (now : Instant)
    (hpending : g.book.pendingRecords = []) : Settled es g.book now v := by
  have hall : ∀ id r, g.book.purchases.get? id = some r → r.isSettled = true := by
    intro id r hr
    have hmem : r ∈ g.book.purchases.values :=
      List.mem_map_of_mem (f := Prod.snd) (Directory.get?_eq_some_iff.1 hr)
    simpa using List.filter_eq_nil_iff.1 hpending r hmem
  have hissued : ∀ id r, g.book.purchases.get? id = some r → issuedFor es id = true := by
    intro id r hr
    have heffects := (h.account id).performs_script hr (hall id r hr)
    rw [issuedFor, any_of_forall₂ heffects fun step x hstep => hstep.isIssue]
    simp [PurchaseRecord.script]
  have hforwarded : ∀ id r, g.book.purchases.get? id = some r → forwardedFor es id = true := by
    intro id r hr
    have heffects := (h.account id).performs_script hr (hall id r hr)
    rw [forwardedFor, any_of_forall₂ heffects fun step x hstep => hstep.isForward]
    simp [PurchaseRecord.script]
  have htotal : v.issuance.total.val = (g.book.stats now).tokensSold.val + unsoldIssued es := by
    rw [h.val_total hfree, h.sum_balances hfree, h.val_tokensSold now]
    refine congrArg (· + _) (Directory.sumOf_congr fun id => ?_)
    cases hr : g.book.purchases.get? id with
    | none => rfl
    | some r => simp [hissued id r hr]
  refine ⟨htotal, fun hf => htotal.trans (h.sum_capacity hf now), fun c => ?_, fun id r hr => ?_⟩
  · rw [h.val_forwardedTotal c]
    refine (Directory.sumOf_congr fun id => ?_).trans (h.sum_fundsRaised c).symm
    cases hr : g.book.purchases.get? id with
    | none => rfl
    | some r => simp [hforwarded id r hr]
  · obtain ⟨i, q, hbegun, hfor⟩ := hs.records _ (hbook ▸ Book.mem_filed hr)
    refine ⟨i, q, hbegun, ⟨hfor.buyer, hfor.beneficiary, hfor.amount⟩, ?_⟩
    rw [h.forward_of_isSettled hr (hall id r hr), h.refund_of_isSettled hr (hall id r hr),
      ← hfor.amount]
    exact h.balanced.paid _ (Book.mem_filed hr)

end Ledgers

/-- **Tokens and money are conserved.**  In every state of a sale with the token
ledger and the settlement in memory, whatever callers do, however often their
calls fail, as long as no purchase has the identity under which the unsold
tokens are issued. -/
theorem conserves_of_run {t : Instant} {es : List Event} {s : System} {v : Services}
    (h : ServedRun Forward (.start t) .empty es s v) (hfree : s.book.FinalizeIdFree) :
    Conserves es s.book v ∧ (s.book.pendingRecords = [] → Settled es s.book s.now v) := by
  obtain ⟨g, hg, hbook, -⟩ := h.ledgers
  rw [← hbook] at hfree ⊢
  exact ⟨hg.conserves hfree, hg.settled hfree h.run.requested hbook s.now⟩

/-- A purchase is retried, then the sale is finalized. -/
def Sample.finalized (id : Uuid) : World :=
  (World.run Operation.finalize.program
    (World.run (Operation.retrySettlement id).program (unsettled request)).2).2

/-- Tokens that were not issued at first are when the purchase is retried, the
others when the sale is finalized: all hundred. -/
theorem conserves_of_finalized_sale : ∃ es s v,
    ServedRun Forward (.start Sample.early) .empty es s v ∧ s.book.finalized = true ∧
    v.issuance.total.val = 100 ∧ Conserves es s.book v ∧ Settled es s.book s.now v := by
  obtain ⟨es₁, h₁⟩ := Sample.run_unsettled Sample.request
  obtain ⟨es₂, h₂⟩ := h₁.andRun (.retrySettlement ⟨7, by decide⟩)
  obtain ⟨es₃, h₃⟩ := h₂.andRun .finalize
  rw [← Sample.finalized] at h₃
  let b := (Sample.finalized ⟨7, by decide⟩).system.book
  obtain ⟨hfree, hpending, hfinalized, hcapacity⟩ : b.FinalizeIdFree ∧ b.pendingRecords = [] ∧
      b.finalized = true ∧ (b.tiers.map fun t => t.spec.totalCapacity.val).sum = 100 := by
    decide +kernel
  obtain ⟨hconserves, hsettled⟩ := conserves_of_run h₃ hfree
  have hsettled := hsettled hpending
  exact ⟨es₃, _, _, h₃, hfinalized, (hsettled.capacity hfinalized).trans hcapacity, hconserves,
    hsettled⟩

end TokenSale
