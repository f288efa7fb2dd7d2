import TokenSale.Proofs.Lifecycle

/-!
# TokenSale.Proofs.SettlementAccount

What was accepted on behalf of a purchase, and what the sale knows of it.  Any
number of callers may try to settle a purchase, and every call they make may be
refused; what keeps them in step is that one attempt at most is under way, and
that it starts from the progress that the last one has left on record.

* `PurchaseRecord.Performs` — the call by which a step lands, spelled out;
* `accepted` — the effects that were accepted on behalf of a purchase;
* `Account` — how they, the record and the callers fit together;
* `Tracked.Step.account` — every step keeps that;
* `Account.lands` — so what was accepted is the beginning of the script.
-/

namespace TokenSale

/-! ## what was accepted -/

/-- The event of a fill. -/
def PurchaseRecord.fillEvent (r : PurchaseRecord) (f : Fill) : SaleEvent :=
  .tokenPurchase r.purchaseId r.buyer r.beneficiary r.plan.currency f.tierIndex f.isDiscount
    f.tokens f.units f.price

/-- The effect is the call by which a step of a purchase lands; payments may go
anywhere. -/
def PurchaseRecord.Performs (r : PurchaseRecord) : SettlementStep → Effect → Prop
  | .recordFill f, x => x = .emit (r.fillEvent f)
  | .issue, x => x = .issue r.purchaseId r.beneficiary r.plan.result.tokensAllocated
  | .forward, x => ∃ destination,
    x = .forward r.purchaseId r.plan.currency r.plan.result.fundsConsumed destination
  | .recordFunds, x => ∃ destination, x = .emit
    (.fundsReceived r.purchaseId r.plan.currency r.plan.result.fundsConsumed destination)
  | .refund, x => x = .refund r.purchaseId r.plan.currency r.plan.result.fundsRefunded r.buyer
  | .recordRefund, x => x = .emit
    (.refunded r.purchaseId r.buyer r.plan.currency r.plan.result.fundsRefunded)

/-- An attempt makes these calls. -/
theorem PurchaseRecord.performs_effectOf (r : PurchaseRecord) (destination : String)
    (step : SettlementStep) : r.Performs step (r.effectOf destination step) := by
  cases step with
  | forward | recordFunds => exact ⟨destination, rfl⟩
  | recordFill | issue | refund | recordRefund => rfl

/-- The effect that is accepted here on behalf of a purchase. -/
def Event.accepted? (id : Uuid) : Event → Option Effect
  | answer _ o (.effect e) (.ok _) =>
    if o.settles = true ∧ e.purchaseId? = some id then some e else none
  | _ => none

/-- The effects that were accepted on behalf of a purchase. -/
def accepted (id : Uuid) (es : List Event) : List Effect := es.filterMap (Event.accepted? id)

theorem accepted_append (id : Uuid) (es : List Event) (e : Event) :
    accepted id (es ++ [e]) = accepted id es ++ (e.accepted? id).toList := by
  rw [accepted, List.filterMap_append]
  cases he : e.accepted? id <;> simp [accepted, he]

/-- An event that shows none for the purchase leaves the calls accepted for it. -/
theorem accepted_of_none {id : Uuid} {e : Event} (he : e.accepted? id = none) (es : List Event) :
    accepted id (es ++ [e]) = accepted id es := by
  rw [accepted_append, he, Option.toList_none, List.append_nil]

/-- Every call of a settlement bears the identity of its purchase. -/
theorem purchaseId?_effectOf (r : PurchaseRecord) (destination : String) (s : SettlementStep) :
    (r.effectOf destination s).purchaseId? = some r.purchaseId := by
  cases s <;> rfl

/-! ## the account of a purchase -/

/-- The purchase that a caller is settling. -/
def Holding.settling? : Holding → Option Uuid
  | settling id .. => some id
  | _ => none

/-- How the record of a purchase, the effects accepted on its behalf and the
callers fit together. -/
inductive Account (es : List Event) (g : Tracked) (id : Uuid) : Prop
  /-- There is no such purchase. -/
  | absent (record : g.book.purchases.get? id = none)
      (free : ∀ i, (g.holding i).settling? ≠ some id) (effects : accepted id es = [])
  /-- Nobody is settling it; its progress tells what was accepted. -/
  | resting {r : PurchaseRecord} {landed : List SettlementStep}
      (record : g.book.purchases.get? id = some r) (own : r.purchaseId = id)
      (configured : g.book.terms.isSome) (flight : r.settlement.inFlight = false)
      (free : ∀ i, (g.holding i).settling? ≠ some id) (stored : r.Stored r.settlement landed)
      (effects : List.Forall₂ r.Performs landed (accepted id es))
  /-- One caller is settling it; its own progress tells what was accepted, and
  the one on record what was accepted before. -/
  | underway {i : Nat} {r : PurchaseRecord} {destination : String} {p : SettlementProgress}
      {failure : Option CollaboratorError} {kept landed : List SettlementStep}
      (record : g.book.purchases.get? id = some r) (own : r.purchaseId = id)
      (configured : g.book.terms.isSome) (flight : r.settlement.inFlight = true)
      (holder : g.holding i = .settling id r destination p failure)
      (others : ∀ j, j ≠ i → (g.holding j).settling? ≠ some id)
      (stored : r.Stored r.settlement kept) (grown : kept <+: landed) (reached : r.Reached p landed)
      (failed : failure ≠ none → r.outstandingAt p ≠ [])
      (effects : List.Forall₂ r.Performs landed (accepted id es))

namespace Account

variable {es : List Event} {g : Tracked} {e : Event} {i : Nat} {id : Uuid}

/-- Steps that do not concern the purchase. -/
theorem other {b' : Book} {now' : Instant} {holding' : Nat → Holding} (h : Account es g id)
    (hrecord : b'.purchases.get? id = g.book.purchases.get? id)
    (hterms : g.book.terms.isSome → b'.terms.isSome)
    (hsame : ∀ j, holding' j = g.holding j ∨
      (g.holding j).settling? ≠ some id ∧ (holding' j).settling? ≠ some id)
    (he : e.accepted? id = none) : Account (es ++ [e]) ⟨b', now', holding'⟩ id := by
  have hfree {j : Nat} (hj : (g.holding j).settling? ≠ some id) :
      (holding' j).settling? ≠ some id := by
    cases hsame j with
    | inl heq => rwa [heq]
    | inr hnone => exact hnone.2
  have haccepted := accepted_of_none he es
  cases h with
  | absent record free effects =>
      exact .absent (hrecord.trans record) (fun j => hfree (free j)) (haccepted.trans effects)
  | resting record own configured flight free stored effects =>
      exact .resting (hrecord.trans record) own (hterms configured) flight (fun j => hfree (free j))
        stored (haccepted ▸ effects)
  | @underway i r destination p failure kept landed record own configured flight holder others
      stored grown reached failed effects =>
      have hholder : holding' i = .settling id r destination p failure := by
        cases hsame i with
        | inl heq => exact heq.trans holder
        | inr hnone => simp [holder, Holding.settling?] at hnone
      exact .underway (hrecord.trans record) own (hterms configured) flight hholder
        (fun j hj => hfree (others j hj)) stored grown reached failed (haccepted ▸ effects)

/-- A caller that is not settling the purchase leaves who is. -/
theorem same_withHolding {h' : Holding} (hi : (g.holding i).settling? ≠ some id)
    (hi' : h'.settling? ≠ some id) (j : Nat) : (g.withHolding i h').holding j = g.holding j ∨
      (g.holding j).settling? ≠ some id ∧ ((g.withHolding i h').holding j).settling? ≠ some id :=
  Tracked.withHolding_same (P := fun x => x.settling? ≠ some id) hi hi' j

/-- A caller that is settling a purchase is the only one. -/
theorem of_settling {r : PurchaseRecord} {destination : String} {p : SettlementProgress}
    {failure : Option CollaboratorError} (h : Account es g id)
    (hi : g.holding i = .settling id r destination p failure) :
    g.book.purchases.get? id = some r ∧ r.purchaseId = id ∧ g.book.terms.isSome ∧
      r.settlement.inFlight = true ∧ (∀ j, j ≠ i → (g.holding j).settling? ≠ some id) ∧
      (failure ≠ none → r.outstandingAt p ≠ []) ∧
      ∃ kept landed, r.Stored r.settlement kept ∧ kept <+: landed ∧ r.Reached p landed ∧
        List.Forall₂ r.Performs landed (accepted id es) := by
  have hsome : (g.holding i).settling? = some id := by simp [hi, Holding.settling?]
  cases h with
  | absent record free | resting record own configured flight free => exact absurd hsome (free i)
  | @underway k _ _ _ _ kept landed record own configured flight holder others stored grown reached
      failed effects =>
      have hik : i = k := by_contra fun hne => others i hne hsome
      subst hik
      rw [hi, Holding.settling.injEq] at holder
      obtain ⟨-, rfl, rfl, rfl, rfl⟩ := holder
      exact ⟨record, own, configured, flight, others, failed, kept, landed, stored, grown, reached,
        effects⟩

/-- The record of a purchase that nobody is settling tells what was accepted. -/
theorem of_resting {r : PurchaseRecord} (h : Account es g id)
    (hr : g.book.purchases.get? id = some r) (hflight : r.settlement.inFlight = false) :
    r.purchaseId = id ∧ g.book.terms.isSome ∧ (∀ j, (g.holding j).settling? ≠ some id) ∧
      ∃ landed, r.Stored r.settlement landed ∧
        List.Forall₂ r.Performs landed (accepted id es) := by
  cases h with
  | absent record =>
      rw [hr] at record
      contradiction
  | @resting _ landed record own configured _ free stored effects =>
      rw [hr, Option.some.injEq] at record
      subst record
      exact ⟨own, configured, free, landed, stored, effects⟩
  | underway record own configured flight =>
      rw [hr, Option.some.injEq] at record
      subst record
      rw [hflight] at flight
      contradiction

end Account

/-! ## the steps -/

/-- A step under the lock leaves the purchases alone, files one, or begins or
ends the settlement of one. -/
theorem LockStep.purchase_cases {o : Operation} {b b' : Book} {now : Instant} {h h' : Holding}
    (hs : LockStep o b now h b' h') :
    (h.settling? = none ∧ h'.settling? = none ∧ b'.purchases = b.purchases) ∨
      (h = .nothing ∧ h' = .nothing ∧ ∃ r, b.purchases.get? r.purchaseId = none ∧
        r.settlement = .initial ∧ b'.purchases = b.purchases.insert r.purchaseId r ∧
        b'.terms.isSome) ∨
      (h = .nothing ∧ ∃ id r destination, b.purchases.get? id = some r ∧ r.isSettled = false ∧
        r.settlement.inFlight = false ∧
        h' = .settling id (Book.attempted r) destination (Book.attempted r).settlement none ∧
        b'.purchases = b.purchases.insert id (Book.attempted r)) ∨
      ∃ id r destination p failure q, h = .settling id r destination p failure ∧ h' = .nothing ∧
        b' = b.endSettlement id q failure ∧
        (failure = none ∧ r.outstandingAt p = [] ∧ q = p.close ∨ failure ≠ none ∧ q = p) := by
  cases hs with
  | keep => exact .inl ⟨rfl, rfl, rfl⟩
  | change ho hc =>
      obtain ⟨-, -, t, limit, overrides, rfl, -⟩ := Book.change_ok hc
      exact .inl ⟨rfl, rfl, rfl⟩
  | setPaused hp =>
      obtain ⟨hv, -⟩ | ⟨-, rfl⟩ := Book.setPaused_ok hp
      · contradiction
      · exact .inl ⟨rfl, rfl, rfl⟩
  | commit ho hc =>
      exact .inr (.inl ⟨rfl, rfl, _, Book.purchases_of_commitPurchase hc⟩)
  | beginSettlement ho hb =>
      obtain ⟨t, r, -, hr, hsettled, hflight, -, rfl, rfl⟩ := Book.beginSettlement_started hb
      exact .inr (.inr (.inl ⟨rfl, _, r, _, hr, hsettled, hflight, rfl, rfl⟩))
  | endSettled hdone =>
      exact .inr (.inr (.inr ⟨_, _, _, _, _, _, rfl, rfl, rfl, .inl ⟨rfl, hdone, rfl⟩⟩))
  | endFailed => exact .inr (.inr (.inr ⟨_, _, _, _, _, _, rfl, rfl, rfl, .inr ⟨by simp, rfl⟩⟩))
  | beginFinalize ho hb =>
      obtain ⟨-, -, -, t, -, -, rfl⟩ := Book.beginFinalize_ok hb
      exact .inl ⟨rfl, rfl, rfl⟩
  | finalize | giveUpFinalize => exact .inl ⟨rfl, rfl, rfl⟩

/-- A purchase that is not settled has steps outstanding. -/
theorem PurchaseRecord.Stored.outstandingAt_ne_nil {r : PurchaseRecord}
    {landed : List SettlementStep} (hs : r.Stored r.settlement landed)
    (h : r.isSettled = false) : r.outstandingAt r.settlement ≠ [] := by
  rw [Ne, hs.outstandingAt_eq_nil_iff, ← hs.isComplete_iff]
  simpa [PurchaseRecord.isSettled] using h

/-- Filing a purchase opens its account. -/
theorem Account.commit {es : List Event} {g : Tracked} {r : PurchaseRecord} {b' : Book}
    (h : Account es g r.purchaseId) (hnone : g.book.purchases.get? r.purchaseId = none)
    (hinitial : r.settlement = .initial)
    (hpurchases : b'.purchases = g.book.purchases.insert r.purchaseId r)
    (hconfigured : b'.terms.isSome) : Account es { g with book := b' } r.purchaseId := by
  have hrecord : b'.purchases.get? r.purchaseId = some r := by
    rw [hpurchases, Directory.get?_insert_self]
  cases h with
  | absent record free effects =>
      refine .resting hrecord rfl hconfigured ?_ free (hinitial ▸ r.stored_initial) ?_
      · rw [hinitial]
        rfl
      · rw [effects]
        exact .nil
  | resting record | underway record =>
      rw [hnone] at record
      contradiction

/-- An attempt starts from the progress on record. -/
theorem Account.attempt {es : List Event} {g : Tracked} {i : Nat} {id : Uuid} {r : PurchaseRecord}
    {destination : String} {b' : Book} (h : Account es g id)
    (hr : g.book.purchases.get? id = some r) (hsettled : r.isSettled = false)
    (hflight : r.settlement.inFlight = false)
    (hpurchases : b'.purchases = g.book.purchases.insert id (Book.attempted r))
    (hterms : g.book.terms.isSome → b'.terms.isSome) :
    Account es { g.withHolding i (.settling id (Book.attempted r) destination
      (Book.attempted r).settlement none) with book := b' } id := by
  obtain ⟨own, configured, free, landed, stored, effects⟩ := h.of_resting hr hflight
  have hrecord : b'.purchases.get? id = some (Book.attempted r) := by
    rw [hpurchases, Directory.get?_insert_self]
  have hreached := stored.reached (stored.outstandingAt_ne_nil hsettled)
  exact .underway hrecord own (hterms configured) rfl (g.withHolding_self i _)
    (Tracked.withHolding_others (P := fun x => x.settling? ≠ some id) fun j _ => free j)
    ⟨stored.script, stored.fills, stored.refund⟩ ⟨[], List.append_nil landed⟩
    ⟨hreached.script, hreached.fills, hreached.refund⟩ (fun hne => absurd rfl hne) effects

/-- Storing progress changes the settlement of the record alone. -/
theorem Book.get?_endSettlement_self {b : Book} {id : Uuid} {r : PurchaseRecord}
    (hr : b.purchases.get? id = some r) (q : SettlementProgress)
    (failure : Option CollaboratorError) :
    (b.endSettlement id q failure).purchases.get? id = some { r with settlement := { q with
      inFlight := false, lastError := failure.map CollaboratorError.message } } := by
  simp only [endSettlement, hr, Directory.get?_insert_self]

/-- The other records stay. -/
theorem Book.get?_endSettlement_ne {b : Book} {id k : Uuid} (hk : id ≠ k) (q : SettlementProgress)
    (failure : Option CollaboratorError) :
    (b.endSettlement k q failure).purchases.get? id = b.purchases.get? id := by
  unfold endSettlement
  split
  · rfl
  · exact Directory.get?_insert_ne _ hk _

/-- A purchase stays on record as it was filed. -/
theorem LockStep.get?_filed {o : Operation} {b b' : Book} {now : Instant} {h h' : Holding}
    (hs : LockStep o b now h b' h') {id : Uuid} {r : PurchaseRecord}
    (hr : b.purchases.get? id = some r) :
    ∃ r', b'.purchases.get? id = some r' ∧ r'.filed = r.filed := by
  obtain ⟨-, -, hpurchases⟩ | ⟨-, -, x, hfree, -, hpurchases, -⟩ |
    ⟨-, k, x, -, hx, -, -, -, hpurchases⟩ | ⟨k, -, -, -, failure, q, -, -, rfl, -⟩ :=
    hs.purchase_cases
  · exact ⟨r, hpurchases ▸ hr, rfl⟩
  · have hne : id ≠ x.purchaseId := by
      rintro rfl
      simp [hfree] at hr
    exact ⟨r, by rw [hpurchases, Directory.get?_insert_ne _ hne, hr], rfl⟩
  · by_cases hk : id = k
    · subst hk
      rw [hr, Option.some.injEq] at hx
      exact ⟨_, by rw [hpurchases, Directory.get?_insert_self], by rw [← hx]; rfl⟩
    · exact ⟨r, by rw [hpurchases, Directory.get?_insert_ne _ hk, hr], rfl⟩
  · by_cases hk : id = k
    · subst hk
      exact ⟨_, Book.get?_endSettlement_self hr q failure, rfl⟩
    · exact ⟨r, by rw [Book.get?_endSettlement_ne hk, hr], rfl⟩

/-- An attempt leaves on record what it has reached. -/
theorem Account.rest {es : List Event} {g : Tracked} {i : Nat} {id : Uuid} {r : PurchaseRecord}
    {destination : String} {p q : SettlementProgress} {failure : Option CollaboratorError}
    (h : Account es g id) (hi : g.holding i = .settling id r destination p failure)
    (hq : failure = none ∧ r.outstandingAt p = [] ∧ q = p.close ∨ failure ≠ none ∧ q = p) :
    Account es { g.withHolding i .nothing with book := g.book.endSettlement id q failure } id := by
  obtain ⟨record, own, configured, -, others, failed, kept, landed, -, -, reached, effects⟩ :=
    h.of_settling hi
  have hstored : r.Stored q landed := by
    obtain ⟨-, hdone, rfl⟩ | ⟨hne, rfl⟩ := hq
    · exact reached.close hdone
    · exact reached.stored (failed hne)
  have hterms : (g.book.endSettlement id q failure).terms.isSome := by
    rwa [(Book.sealed_of_endSettlement g.book id q failure).terms]
  exact .resting (Book.get?_endSettlement_self record q failure) own hterms rfl
    (Tracked.withHolding_all (P := fun x => x.settling? ≠ some id) others nofun)
    ⟨hstored.script, hstored.fills, hstored.refund⟩ effects

theorem Account.of_accepted {es es' : List Event} {g : Tracked} {id : Uuid} (h : Account es g id)
    (he : accepted id es' = accepted id es) : Account es' g id := by
  cases h with
  | absent record free effects => exact .absent record free (he.trans effects)
  | resting record own configured flight free stored effects =>
      exact .resting record own configured flight free stored (he ▸ effects)
  | underway record own configured flight holder others stored grown reached failed effects =>
      exact .underway record own configured flight holder others stored grown reached failed
        (he ▸ effects)

/-- **A step under the lock leaves every purchase accounted for.** -/
theorem LockStep.account {o : Operation} {es : List Event} {g : Tracked} {i : Nat} {b' : Book}
    {h' : Holding} (hs : LockStep o g.book g.now (g.holding i) b' h') {id : Uuid}
    (h : Account es g id) :
    Account (es ++ [.lock i]) { g.withHolding i h' with book := b' } id := by
  have hterms : g.book.terms.isSome → b'.terms.isSome := hs.advances.configured
  have haccepted : accepted id (es ++ [.lock i]) = accepted id es := accepted_of_none rfl es
  obtain ⟨hi, hi', hpurchases⟩ | ⟨hi, rfl, r, hnone, hinitial, hpurchases, hconfigured⟩ |
    ⟨hi, k, r, destination, hr, hsettled, hflight, rfl, hpurchases⟩ |
    ⟨k, r, destination, p, failure, q, hi, rfl, rfl, hq⟩ := hs.purchase_cases
  · exact h.other (by rw [hpurchases]) hterms
      (Account.same_withHolding (by simp [hi]) (by simp [hi'])) rfl
  · by_cases hid : id = r.purchaseId
    · subst hid
      have hsame : g.withHolding i .nothing = g := by
        rw [← hi, Tracked.withHolding, Function.update_eq_self]
      rw [hsame]
      exact (h.commit hnone hinitial hpurchases hconfigured).of_accepted haccepted
    · exact h.other (by rw [hpurchases, Directory.get?_insert_ne _ hid]) hterms
        (Account.same_withHolding (by simp [hi, Holding.settling?])
          (by simp [Holding.settling?])) rfl
  · by_cases hid : id = k
    · subst hid
      exact (h.attempt hr hsettled hflight hpurchases hterms).of_accepted haccepted
    · exact h.other (by rw [hpurchases, Directory.get?_insert_ne _ hid]) hterms
        (Account.same_withHolding (by simp [hi, Holding.settling?])
          (by simpa [Holding.settling?] using Ne.symm hid)) rfl
  · by_cases hid : id = k
    · subst hid
      exact (h.rest hi hq).of_accepted haccepted
    · exact h.other (Book.get?_endSettlement_ne hid q failure) hterms
        (Account.same_withHolding (by simpa [hi, Holding.settling?] using Ne.symm hid)
          (by simp [Holding.settling?])) rfl

/-- A call whose answer is accepted makes the next step land. -/
theorem Account.land {es : List Event} {g : Tracked} {i : Nat} {o : Operation} {id : Uuid}
    {r : PurchaseRecord} {destination : String} {p : SettlementProgress} {step : SettlementStep}
    {rest : List SettlementStep} (h : Account es g id)
    (hi : g.holding i = .settling id r destination p none) (ho : o.settles = true)
    (hstep : r.outstandingAt p = step :: rest) :
    Account (es ++ [.answer i o (.effect (r.effectOf destination step)) (.ok ())])
      (g.withHolding i (.settling id r destination (p.mark step) none)) id := by
  obtain ⟨record, own, configured, flight, others, -, kept, landed, stored, ⟨more, hmore⟩, reached,
    effects⟩ := h.of_settling hi
  have heffect : Event.accepted? id (.answer i o (.effect (r.effectOf destination step)) (.ok ()))
      = some (r.effectOf destination step) := by
    simp [Event.accepted?, ho, purchaseId?_effectOf, own]
  refine .underway record own configured flight (g.withHolding_self i _)
    (Tracked.withHolding_others (P := fun x => x.settling? ≠ some id) others) stored
    ⟨more ++ [step], by rw [← List.append_assoc, hmore]⟩ (reached.mark hstep)
    (fun hne => absurd rfl hne) ?_
  rw [accepted_append, heffect]
  exact List.rel_append effects (.cons (r.performs_effectOf destination step) .nil)

/-- A refusal ends the attempt and changes nothing. -/
theorem Account.refuse {es : List Event} {g : Tracked} {i : Nat} {id : Uuid} {r : PurchaseRecord}
    {destination : String} {p : SettlementProgress} {step : SettlementStep}
    {rest : List SettlementStep} {e : CollaboratorError} (h : Account es g id)
    (hi : g.holding i = .settling id r destination p none)
    (hstep : r.outstandingAt p = step :: rest) :
    Account es (g.withHolding i (.settling id r destination p (some e))) id := by
  obtain ⟨record, own, configured, flight, others, -, kept, landed, stored, grown, reached,
    effects⟩ := h.of_settling hi
  exact .underway record own configured flight (g.withHolding_self i _)
    (Tracked.withHolding_others (P := fun x => x.settling? ≠ some id) others) stored grown reached
    (fun _ => by simp [hstep]) effects

/-- Whoever has returned is settling nothing. -/
theorem Operation.Ends.settling? {o : Operation} {h : Holding} {result : o.Result}
    (he : o.Ends h result) : h.settling? = none := by
  cases o with
  | finalize =>
      cases result with
      | error e => rw [show h = .nothing from he]; rfl
      | ok unsold =>
          obtain ⟨c, rfl, -⟩ := he
          rfl
  | _ => rw [show h = .nothing from he]; rfl

/-- **Every step keeps the account of every purchase.** -/
theorem Tracked.Step.account {clock : Instant → Instant → Prop} {es : List Event} {g g' : Tracked}
    {e : Event} (hs : Tracked.Step clock g e g') (h : ∀ id, Account es g id) (id : Uuid) :
    Account (es ++ [e]) g' id := by
  cases hs with
  | tick hle => exact (h id).other rfl (fun ht => ht) (fun _ => .inl rfl) rfl
  | begin o hi => exact (h id).other rfl (fun ht => ht) (fun _ => .inl rfl) rfl
  | lock hs => exact hs.account (h id)
  | @answer i o c a h' ha =>
      have hquiet (hi : (g.holding i).settling? = none) (hi' : h'.settling? = none)
          (he : (Event.answer i o c a).accepted? id = none) :
          Account (es ++ [.answer i o c a]) (g.withHolding i h') id :=
        (h id).other rfl (fun ht => ht)
          (Account.same_withHolding (by simp [hi]) (by simp [hi'])) he
      -- only the answers to a settlement's own calls concern a purchase, and only its own
      generalize hi : g.holding i = hold at ha hquiet
      cases ha with
      | compliance | rate | notIssued => exact hquiet rfl rfl rfl
      | @announced event a hnone =>
          exact hquiet rfl rfl (by cases a <;> simp [Event.accepted?, hnone])
      | issued ho => exact hquiet rfl rfl (by simp [Event.accepted?, ho, Operation.settles])
      | @finalAnnounced c a ho =>
          exact hquiet rfl rfl (by cases a <;> simp [Event.accepted?, ho, Operation.settles])
      | @landed k r destination p step rest ho hstep =>
          by_cases hid : id = k
          · subst hid
            exact (h id).land hi ho hstep
          · have hown : r.purchaseId = k := ((h k).of_settling hi).2.1
            have hother : Event.accepted? id
                (.answer i o (.effect (r.effectOf destination step)) (.ok ())) = none := by
              simp [Event.accepted?, purchaseId?_effectOf, hown, Ne.symm hid]
            exact (h id).other rfl (fun ht => ht)
              (Account.same_withHolding (by simpa [hi, Holding.settling?] using Ne.symm hid)
                (by simpa [Holding.settling?] using Ne.symm hid)) hother
      | @refused k r destination p step rest e ho hstep =>
          by_cases hid : id = k
          · subst hid
            exact ((h id).refuse hi hstep).of_accepted (accepted_of_none rfl es)
          · exact (h id).other rfl (fun ht => ht)
              (Account.same_withHolding (by simpa [hi, Holding.settling?] using Ne.symm hid)
                (by simpa [Holding.settling?] using Ne.symm hid)) rfl
  | @finish i o result hends =>
      have hi : (g.holding i).settling? = none := hends.settling?
      exact (h id).other rfl (fun ht => ht)
        (Account.same_withHolding (by simp [hi]) (by simp [Holding.settling?])) rfl

/-- **Every run keeps it.** -/
theorem Run.account {clock : Instant → Instant → Prop} {t : Instant} {es : List Event} {s : System}
    (h : Run clock (.start t) es s) : ∃ g, (∀ id, Account es g id) ∧ g.Tracks s :=
  h.invariant (P := fun es g => ∀ id, Account es g id)
    (fun id => .absent rfl (fun _ => by simp [Tracked.start, Holding.settling?]) rfl)
    fun h hs id => hs.account h id

/-! ## what has landed -/

/-- Nothing is accepted on behalf of a purchase that is not on record. -/
theorem Account.accepted_eq_nil {es : List Event} {g : Tracked} {id : Uuid} (h : Account es g id)
    (hr : g.book.purchases.get? id = none) : accepted id es = [] := by
  cases h with
  | absent record free effects => exact effects
  | resting record | underway record =>
      rw [hr] at record
      contradiction

/-- How far the script of a purchase has landed by what was accepted on its
behalf.  The progress on record tells that too; while an attempt is under way,
it tells how far the script had landed when it began. -/
structure PurchaseRecord.Lands (r : PurchaseRecord) (kept landed : List SettlementStep)
    (effects : List Effect) : Prop where
  grown : kept <+: landed
  inOrder : landed <+: r.script
  performs : List.Forall₂ r.Performs landed effects
  describes : r.settlement.Describes r kept
  isSettled_iff : r.isSettled = true ↔ kept = r.script
  resting : r.settlement.inFlight = false → kept = landed ∧
    r.script = landed ++ r.outstandingAt r.settlement

/-- **What was accepted on behalf of a purchase is the beginning of its script.** -/
theorem Account.lands {es : List Event} {g : Tracked} {id : Uuid} {r : PurchaseRecord}
    (h : Account es g id) (hr : g.book.purchases.get? id = some r) :
    r.purchaseId = id ∧ g.book.terms.isSome ∧ ∃ kept landed, r.Lands kept landed (accepted id es) := by
  cases h with
  | absent record =>
      rw [hr] at record
      contradiction
  | @resting _ landed record own configured flight free stored effects =>
      rw [hr, Option.some.injEq] at record
      subst record
      exact ⟨own, configured, landed, landed, List.prefix_refl landed, ⟨_, stored.script.symm⟩,
        effects, stored.describes, stored.isComplete_iff, fun _ => ⟨rfl, stored.script⟩⟩
  | @underway _ _ _ _ _ kept landed record own configured flight holder others stored grown reached
      failed effects =>
      rw [hr, Option.some.injEq] at record
      subst record
      refine ⟨own, configured, kept, landed, grown, ⟨_, reached.script.symm⟩, effects,
        stored.describes, stored.isComplete_iff, fun hrest => ?_⟩
      rw [hrest] at flight
      contradiction

/-- All of it, once the purchase is settled. -/
theorem Account.performs_script {es : List Event} {g : Tracked} {id : Uuid} {r : PurchaseRecord}
    (h : Account es g id) (hr : g.book.purchases.get? id = some r) (hsettled : r.isSettled = true) :
    List.Forall₂ r.Performs r.script (accepted id es) := by
  obtain ⟨-, -, kept, landed, hlands⟩ := h.lands hr
  have hgrown := hlands.grown
  rw [hlands.isSettled_iff.1 hsettled] at hgrown
  rw [hgrown.eq_of_length_le hlands.inOrder.length_le]
  exact hlands.performs

end TokenSale
