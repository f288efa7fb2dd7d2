import TokenSale.Proofs.Conservation

/-!
# TokenSale.Proofs.Finalizing

What finalizing a closed sale and retrying a purchase come to once no failure
is left: they succeed, and they issue what is missing.  That rests on
one condition: that no purchase has the identity under which the unsold tokens
are issued.  Callers may choose that identity, and a purchase that has it keeps
the sale from ever being finalized.

* `World.run_eq_alone` — when every effect is accepted, running an operation in
  a world is running it alone;
* `Issuance.Grants`, `World.performAll_of_grants` — effects that are accepted;
* `Ledgers.grants_closing`, `grants_purchase` — there is room for every issue
  that is still to come;
* `Finalizes` — the sale is finalized, and pending purchases complete;
* `never_finalized` — what a purchase under that identity does.
-/

namespace TokenSale

/-! ## programs whose calls are all accepted -/

namespace Program

variable {α β : Type}

/-- The program calls for nothing but effects. -/
def CallsEffects : Program α → Prop
  | done _ => True
  | locked _ k => ∀ b now, CallsEffects (k b now)
  | call c k => (∃ x, c = .effect x) ∧ ∀ a, CallsEffects (k a)

theorem CallsEffects.bind {p : Program β} {k : β → Program α} (hp : p.CallsEffects)
    (hk : ∀ b, (k b).CallsEffects) : (p >>= k).CallsEffects := by
  induction p with
  | done b => exact hk b
  | locked f next ih => exact fun b now => ih b now (hp b now)
  | call c next ih => exact ⟨hp.1, fun a => ih a (hp.2 a)⟩

theorem callsEffects_atomically (step : Book → Instant → α × Book) :
    (atomically step).CallsEffects := fun _ _ => trivial

theorem callsEffects_runSteps (r : PurchaseRecord) (destination : String)
    (steps : List SettlementStep) (p : SettlementProgress) :
    (runSteps r destination steps p).CallsEffects :=
  runSteps_induct (P := CallsEffects) (fun _ => trivial) (fun _ _ h => ⟨⟨_, rfl⟩, h⟩) r destination
    steps p

theorem callsEffects_settle (id : Uuid) : (settle id).CallsEffects := by
  refine (callsEffects_atomically _).bind fun x => ?_
  match x with
  | .error e | .ok (.idle status) => trivial
  | .ok (.started record destination) =>
      refine (callsEffects_runSteps ..).bind fun reached => ?_
      exact (callsEffects_atomically _).bind fun _ => trivial

/-- Finalizing asks the outside for nothing but effects. -/
theorem callsEffects_finalize : Sale.finalize.CallsEffects := by
  refine (callsEffects_atomically _).bind fun x => ?_
  match x with
  | .error e => trivial
  | .ok c =>
      have hfinish : CallsEffects (do
          Program.atomically fun b _ => ((), b.endFinalize true)
          Sale.announce (.finalized c.treasury c.unsold c.sold)
          pure (.ok c.unsold) : Program (Except SaleError Tokens)) :=
        fun _ _ => ⟨⟨_, rfl⟩, fun _ => trivial⟩
      by_cases hz : c.unsold.isZero = true
      · simp only [hz, if_true]
        exact hfinish
      · simp only [hz]
        refine ⟨⟨_, rfl⟩, fun a => ?_⟩
        cases a with
        | ok u => exact hfinish
        | error e => exact fun _ _ => trivial

end Program

namespace World

/-- The world after effects that are all accepted, one after the other. -/
def performAll : List Effect → World → Option World
  | [], w => some w
  | x :: rest, w =>
    match w.perform x with
    | (.ok (), w) => performAll rest w
    | (.error _, _) => none

/-- Effects have nothing to do with the book. -/
theorem perform_book (w : World) (b : Book) (x : Effect) :
    perform { w with book := b } x = ((w.perform x).1, { (w.perform x).2 with book := b }) := by
  cases x <;> rfl

/-- What is performed outside does not depend on the book. -/
theorem performAll_book {xs : List Effect} {w w' : World} (h : performAll xs w = some w')
    (b : Book) : performAll xs { w with book := b } = some { w' with book := b } := by
  induction xs generalizing w with
  | nil =>
      cases h
      rfl
  | cons x rest ih =>
      simp only [performAll, perform_book] at h ⊢
      split at h
      next hx =>
        rw [hx]
        exact ih h
      · contradiction

/-- **When every effect is accepted, a program that calls for nothing else runs
as it does alone.** -/
theorem run_eq_alone {α : Type} {reply : (c : Call) → c.Answer}
    (hreply : ∀ x, reply (.effect x) = .ok ()) {p : Program α} (hp : p.CallsEffects)
    {w w' : World} (h : performAll (p.alone reply w.now w.book).effects w = some w') :
    run p w = ((p.alone reply w.now w.book).result,
      { w' with book := (p.alone reply w.now w.book).book }) := by
  induction p generalizing w w' with
  | done a =>
      cases h
      rfl
  | locked f k ih =>
      have hrest := performAll_book h (f w.book w.now)
      have hrun := ih w.book w.now (hp _ _) (w := { w with book := f w.book w.now }) hrest
      exact hrun
  | call c k ih =>
      obtain ⟨⟨x, rfl⟩, hk⟩ := hp
      simp only [Program.alone, hreply, Call.landed, List.singleton_append, performAll] at h ⊢
      split at h
      next w₁ hx =>
        obtain ⟨hbook, hnow⟩ := w.serve_book (.effect x)
        rw [serve, hx] at hbook hnow
        rw [run_call, serve, hx, ← hbook, ← hnow]
        rw [← hbook, ← hnow] at h
        exact ih _ (hk _) h
      · contradiction

end World

/-! ## services of which no failure is left -/

/-- Whether every append is taken. -/
def Medium.isSound (m : Medium) : Bool := m.next.all Option.isNone && m.others.isNone

/-- Whether a sink takes every event. -/
def Sink.isSound : Sink → Bool
  | log l => l.failures.left == 0
  | journal _ _ medium => medium.isSound

/-- No failure is left of the services that are called for effects. -/
structure World.Reliable (w : World) : Prop where
  issues : w.issuance.failures.left = 0
  forwards : w.transfers.forwardFailures.left = 0
  refunds : w.transfers.refundFailures.left = 0
  events : ∀ s ∈ w.sinks, s.isSound = true

instance (w : World) : Decidable w.Reliable :=
  decidable_of_iff (w.issuance.failures.left = 0 ∧ w.transfers.forwardFailures.left = 0 ∧
      w.transfers.refundFailures.left = 0 ∧ ∀ s ∈ w.sinks, s.isSound = true)
    ⟨fun ⟨h₁, h₂, h₃, h₄⟩ => ⟨h₁, h₂, h₃, h₄⟩, fun ⟨h₁, h₂, h₃, h₄⟩ => ⟨h₁, h₂, h₃, h₄⟩⟩

/-- A sound medium takes this append and stays sound. -/
theorem Medium.take_of_isSound {m : Medium} (h : m.isSound = true) :
    ∃ m', m.take = (none, m') ∧ m'.isSound = true := by
  obtain ⟨next, others⟩ := m
  simp only [isSound, Bool.and_eq_true, Option.isNone_iff_eq_none] at h
  obtain ⟨hnext, rfl⟩ := h
  cases next with
  | nil => exact ⟨_, rfl, rfl⟩
  | cons a rest =>
      rw [List.all_cons, Bool.and_eq_true, Option.isNone_iff_eq_none] at hnext
      obtain ⟨rfl, hrest⟩ := hnext
      exact ⟨_, rfl, by simp [isSound, hrest]⟩

/-- A sound sink takes every event and stays sound. -/
theorem Sink.emit_of_isSound (e : SaleEvent) (now : Instant) {s : Sink} (h : s.isSound = true) :
    ∃ s', s.emit e now = (.ok (), s') ∧ s'.isSound = true := by
  cases s with
  | log l =>
      have hl : l.failures.left = 0 := by simpa [isSound] using h
      exact ⟨.log { l with events := l.events ++ [e] },
        by simp [emit, EventLog.emit, Failures.take_of_left hl], h⟩
  | journal writer text medium =>
      obtain ⟨medium', htake, hsound⟩ := Medium.take_of_isSound h
      let appended := writer.append text none e.kind e.encode now
      exact ⟨.journal appended.2.1 appended.2.2 medium', by rw [emit, htake]; rfl, hsound⟩

/-- Sinks that take every event do so together. -/
theorem Sink.emitAll_of_isSound (e : SaleEvent) (now : Instant) {sinks : List Sink}
    (h : ∀ s ∈ sinks, s.isSound = true) :
    ∃ sinks', emitAll e now sinks = (.ok (), sinks') ∧ ∀ s ∈ sinks', s.isSound = true := by
  induction sinks with
  | nil => exact ⟨[], rfl, nofun⟩
  | cons s rest ih =>
      obtain ⟨s', hs, hsound⟩ := s.emit_of_isSound e now (h s List.mem_cons_self)
      obtain ⟨rest', hrest, hsounds⟩ := ih fun s' hs' => h s' (List.mem_cons_of_mem s hs')
      refine ⟨s' :: rest', by simp [emitAll, hs, hrest], fun x hx => ?_⟩
      obtain rfl | hx := List.mem_cons.1 hx
      · exact hsound
      · exact hsounds x hx

namespace Issuance

variable {l : Issuance} {id : Uuid} {i : InvestorId} {n : Tokens}

/-- The ledger has issued these tokens already, or has issued nothing under this
identity and has room for them. -/
def Grants (l : Issuance) (id : Uuid) (i : InvestorId) (n : Tokens) : Prop :=
  l.issuances.get? id = some (i, n) ∨
    l.issuances.get? id = none ∧ (l.balance i).val + n.val < Quantity.limit

/-- The tokens among `n` that are still to be issued under an identity: all or none. -/
def due (l : Issuance) (id : Uuid) (n : Tokens) : Nat :=
  if l.issuances.contains id then 0 else n.val

/-- A balance that is set, and the others as they were. -/
theorem balance_insert (l : Issuance) (i j : InvestorId) (n : Tokens)
    (issuances : Directory Uuid (InvestorId × Tokens)) :
    balance { l with balances := l.balances.insert i n, issuances } j =
      if j = i then n else l.balance j := by
  unfold balance
  by_cases hj : j = i
  · simp [hj]
  · simp [hj, Directory.get?_insert]

/-- An issue that is granted adds to one balance what was due. -/
theorem issue_of_grants (hleft : l.failures.left = 0) (h : l.Grants id i n) :
    ∃ l', l.issue id i n = (.ok (), l') ∧ l'.failures = l.failures ∧
      l'.issuances.get? id = some (i, n) ∧
      ∀ j, (l'.balance j).val = (l.balance j).val + if j = i then l.due id n else 0 := by
  unfold issue
  rw [Failures.take_of_left hleft]
  obtain hearlier | ⟨hnone, hroom⟩ := h
  · refine ⟨l, by simp [record, hearlier], rfl, hearlier, fun j => ?_⟩
    simp [due, Directory.contains, hearlier]
  · obtain ⟨next, hnext⟩ : ∃ next, (l.balance i).add? n = some next := by
      cases hadd : (l.balance i).add? n with
      | some next => exact ⟨next, rfl⟩
      | none =>
          rw [Quantity.add?_eq_none_iff] at hadd
          omega
    refine ⟨{ l with
      balances := l.balances.insert i next
      issuances := l.issuances.insert id (i, n) }, ?_, rfl, Directory.get?_insert_self ..,
      fun j => ?_⟩
    · simp only [record, hnone, hnext]
    · rw [balance_insert, due, Directory.contains, hnone]
      by_cases hj : j = i
      · subst hj
        simp [Quantity.add?_eq_some_iff.1 hnext]
      · simp [hj]

end Issuance

namespace World

variable {w : World}

/-- A payment or an event is accepted and leaves the token ledger alone. -/
theorem Reliable.perform (h : w.Reliable) {x : Effect} (hx : x.isIssue = false) :
    ∃ w', w.perform x = (.ok (), w') ∧ w'.Reliable ∧ w'.issuance = w.issuance := by
  cases x with
  | issue id recipient amount => contradiction
  | forward id currency amount destination =>
      let t : Transfer := ⟨id, currency, amount, destination⟩
      refine ⟨{ w with transfers := { w.transfers with
        forwards := Transfers.keepFirst w.transfers.forwards t } }, ?_,
        ⟨h.issues, h.forwards, h.refunds, h.events⟩, rfl⟩
      simp [World.perform, Transfers.forward, Failures.take_of_left h.forwards, t]
  | refund id currency amount investor =>
      let t : Transfer := ⟨id, currency, amount, investor.name⟩
      refine ⟨{ w with transfers := { w.transfers with
        refunds := Transfers.keepFirst w.transfers.refunds t } }, ?_,
        ⟨h.issues, h.forwards, h.refunds, h.events⟩, rfl⟩
      simp [World.perform, Transfers.refund, Failures.take_of_left h.refunds, t]
  | emit event =>
      obtain ⟨sinks, hemit, hsound⟩ := Sink.emitAll_of_isSound event w.now h.events
      exact ⟨{ w with sinks }, by simp [World.perform, hemit],
        ⟨h.issues, h.forwards, h.refunds, hsound⟩, rfl⟩

/-- **Effects of which the only issue is granted are all accepted**, and they
add what is due. -/
theorem performAll_of_grants {id : Uuid} {i : InvestorId} {n : Tokens} {xs : List Effect}
    (hxs : ∀ x ∈ xs, x.isIssue = true → x = .issue id i n) (h : w.Reliable)
    (hgrants : w.issuance.Grants id i n) :
    ∃ w', performAll xs w = some w' ∧ w'.Reliable ∧
      ∀ j, (w'.issuance.balance j).val = (w.issuance.balance j).val +
        if j = i ∧ .issue id i n ∈ xs then w.issuance.due id n else 0 := by
  induction xs generalizing w with
  | nil => exact ⟨w, rfl, h, by simp⟩
  | cons x rest ih =>
      have hrest : ∀ y ∈ rest, y.isIssue = true → y = .issue id i n :=
        fun y hy => hxs y (List.mem_cons_of_mem x hy)
      cases hx : x.isIssue with
      | false =>
          obtain ⟨w₁, hperform, hreliable, hsame⟩ := h.perform hx
          obtain ⟨w', hall, hreliable', hbalance⟩ := ih hrest hreliable (hsame ▸ hgrants)
          refine ⟨w', by simp [performAll, hperform, hall], hreliable', fun j => ?_⟩
          have hne : .issue id i n ≠ x := by
            rintro rfl
            contradiction
          rw [hbalance j, hsame]
          simp [hne]
      | true =>
          obtain rfl := hxs x List.mem_cons_self hx
          obtain ⟨l', hissue, hfailures, hissued, hraised⟩ :=
            Issuance.issue_of_grants h.issues hgrants
          obtain ⟨w', hall, hreliable', hbalance⟩ := ih (w := { w with issuance := l' }) hrest
            ⟨hfailures ▸ h.issues, h.forwards, h.refunds, h.events⟩ (.inl hissued)
          refine ⟨w', by simp [performAll, World.perform, hissue, hall], hreliable', fun j => ?_⟩
          -- a second issue of the same tokens adds nothing
          have hdone : l'.due id n = 0 := by simp [Issuance.due, Directory.contains, hissued]
          rw [hbalance j]
          simp [hdone, hraised j]

end World

/-! ## one operation in such a world -/

/-- Run in a world, the program returns `a` and adds `n` to what one investor
holds and nothing to what others do; again no failure is left. -/
structure World.Adds {α : Type} (w : World) (p : Program α) (a : α) (i : InvestorId) (n : Nat) :
    Prop where
  result : (World.run p w).1 = a
  balance : ∀ j, ((World.run p w).2.issuance.balance j).val =
    (w.issuance.balance j).val + if j = i then n else 0
  reliable : (World.run p w).2.Reliable

/-- A program of which the only issue is granted does in a world what it does alone. -/
theorem World.adds_of_alone {α : Type} {reply : (c : Call) → c.Answer}
    (hreply : ∀ x, reply (.effect x) = .ok ()) {p : Program α} (hp : p.CallsEffects) {w : World}
    (h : w.Reliable) {id : Uuid} {i : InvestorId} {n : Tokens}
    (hxs : ∀ x ∈ (p.alone reply w.now w.book).effects, x.isIssue = true → x = .issue id i n)
    (hgrants : w.issuance.Grants id i n)
    (hdue : .issue id i n ∉ (p.alone reply w.now w.book).effects → w.issuance.due id n = 0) :
    w.Adds p (p.alone reply w.now w.book).result i (w.issuance.due id n) ∧
      (World.run p w).2.book = (p.alone reply w.now w.book).book := by
  obtain ⟨w', hall, hreliable, hbalance⟩ := performAll_of_grants hxs h hgrants
  have hrun := run_eq_alone hreply hp hall
  rw [hrun]
  refine ⟨⟨by rw [hrun], fun j => ?_, by rw [hrun]; exact ⟨hreliable.1, hreliable.2, hreliable.3,
    hreliable.4⟩⟩, rfl⟩
  rw [hrun]
  refine (hbalance j).trans ?_
  by_cases hmem : Effect.issue id i n ∈ (p.alone reply w.now w.book).effects
  · simp [hmem]
  · simp [hmem, hdue hmem]

/-- A call that is accepted, followed by the rest of the program. -/
theorem alone_perform {α : Type} {reply : (c : Call) → c.Answer} {now : Instant} {b : Book}
    {x : Effect} {k : Except CollaboratorError Unit → Program α} (h : reply (.effect x) = .ok ()) :
    (Program.perform x >>= k).alone reply now b =
      let rest := (k (.ok ())).alone reply now b
      { rest with effects := x :: rest.effects } := by
  have hcall : (Program.perform x >>= k).alone reply now b =
      let rest := (k (reply (.effect x))).alone reply now b
      { rest with effects := (Call.effect x).landed (reply (.effect x)) ++ rest.effects } := rfl
  rw [hcall, h]
  rfl

theorem alone_announce {α : Type} {reply : (c : Call) → c.Answer} {now : Instant} {b : Book}
    {event : SaleEvent} {k : Unit → Program α} (h : reply (.effect (.emit event)) = .ok ()) :
    (Sale.announce event >>= k).alone reply now b =
      let rest := (k ()).alone reply now b
      { rest with effects := .emit event :: rest.effects } :=
  alone_perform (k := fun _ => k ()) h

/-- Finalizing a closed sale alone. -/
theorem alone_finalize {reply : (c : Call) → c.Answer} (hreply : ∀ x, reply (.effect x) = .ok ())
    {now : Instant} {b b' : Book} {c : Book.Closing} (h : b.beginFinalize now = .ok (c, b')) :
    Sale.finalize.alone reply now b = ⟨.ok c.unsold, b'.endFinalize true,
      c.issues ++ [.emit (.finalized c.treasury c.unsold c.sold)]⟩ := by
  have hfinish : Program.alone reply now (do
      Program.atomically fun b _ => ((), b.endFinalize true)
      Sale.announce (.finalized c.treasury c.unsold c.sold)
      pure (.ok c.unsold)) b' = ⟨(.ok c.unsold : Except SaleError Tokens), b'.endFinalize true,
        [.emit (.finalized c.treasury c.unsold c.sold)]⟩ := by
    rw [alone_atomically]
    exact alone_announce (hreply _)
  unfold Sale.finalize
  rw [alone_attempt h, Book.Closing.issues]
  by_cases hz : c.unsold.isZero = true
  · simp only [hz, if_true]
    exact hfinish
  · simp only [hz]
    exact (alone_perform (hreply _)).trans (by simp only; rw [hfinish]; rfl)

/-! ## there is room for what is still to be issued -/

theorem Issuance.val_balance_le (l : Issuance) (i : InvestorId) :
    (l.balance i).val ≤ l.balances.sumOf fun _ n => n.val := by
  unfold balance
  cases hget : l.balances.get? i with
  | some n => exact Directory.le_sumOf hget fun _ n => n.val
  | none => exact Nat.zero_le _

namespace Ledgers

variable {es : List Event} {g : Tracked} {v : Services} {id : Uuid} {r : PurchaseRecord}

/-- Under an identity that no purchase has nothing was issued but for the closing. -/
theorem issuances_eq_none (h : Ledgers es g v) (hclosing : ∀ i n, .issue id i n ∉ closingIssues es)
    (habsent : g.book.purchases.get? id = none) : v.issuance.issuances.get? id = none := by
  cases hget : v.issuance.issuances.get? id with
  | none => rfl
  | some p =>
      obtain ⟨r, hr, -⟩ := (h.account id).issue_eq ((h.issue_iff hclosing p.1 p.2).1 hget) rfl
      rw [habsent] at hr
      contradiction

/-- The unsold tokens can be issued. -/
theorem grants_closing (h : Ledgers es g v) (hfree : g.book.FinalizeIdFree)
    (hflags : g.book.finalized = false ∧ g.book.finalizing = false) {c : Book.Closing}
    (hc : g.book.closing? = some c) :
    v.issuance.issuances.get? (Sale.finalizeId c.saleId) = none ∧
      (v.issuance.balance c.treasury).val + c.unsold.val < Quantity.limit := by
  have hissued := h.not_hasIssued_of_flags hflags
  have hnothing : closingIssues es = [] := h.closing.before hissued
  constructor
  · obtain ⟨t, ht, rfl⟩ := Option.map_eq_some_iff.1 hc
    exact h.issuances_eq_none (by simp [hnothing]) (hfree t.config (by simp [Book.config?, ht]))
  · have hbalance := v.issuance.val_balance_le c.treasury
    have hsum := h.sum_balances hfree
    rw [h.unsoldIssued_of_not_hasIssued hissued] at hsum
    have hle := sum_issued_le es g.book
    have hlt := h.sold_add_remaining_lt
    rw [unsold_of_closing? hc]
    omega

/-- The closing is issued under no identity of a purchase. -/
theorem not_mem_closingIssues (h : Ledgers es g v) (hfree : g.book.FinalizeIdFree)
    (hr : g.book.purchases.get? id = some r) (i : InvestorId) (n : Tokens) :
    .issue id i n ∉ closingIssues es := by
  intro hmem
  obtain ⟨c, hc, heq, -⟩ := h.mem_closingIssues hmem
  obtain ⟨t, ht, rfl⟩ := Option.map_eq_some_iff.1 hc
  obtain ⟨rfl, -, -⟩ := Effect.issue.inj heq
  rw [hfree t.config (by simp [Book.config?, ht])] at hr
  contradiction

/-- With the tokens of a purchase that are not issued all balances still fit. -/
theorem sum_balances_add_lt (h : Ledgers es g v) (hfree : g.book.FinalizeIdFree)
    (hr : g.book.purchases.get? id = some r) (hissued : issuedFor es id = false) :
    (v.issuance.balances.sumOf fun _ n => n.val) + r.plan.result.tokensAllocated.val <
      Quantity.limit := by
  have hunsold := h.unsoldIssued_le
  have hlt := h.sold_add_remaining_lt
  have hadd : (g.book.purchases.sumOf fun k x =>
      (if issuedFor es k then x.plan.result.tokensAllocated.val else 0) +
        if k = id then r.plan.result.tokensAllocated.val else 0) =
      (g.book.purchases.sumOf fun k x =>
        if issuedFor es k then x.plan.result.tokensAllocated.val else 0) +
        r.plan.result.tokensAllocated.val := by
    refine Directory.sumOf_eq_add (j := id) fun k => ?_
    by_cases hk : k = id
    · subst hk
      simp [hr]
    · simp [hk]
  have hle : (g.book.purchases.sumOf fun k x =>
      (if issuedFor es k then x.plan.result.tokensAllocated.val else 0) +
        if k = id then r.plan.result.tokensAllocated.val else 0) ≤
      g.book.purchases.sumOf fun _ x => x.plan.result.tokensAllocated.val := by
    refine Directory.sumOf_le fun k x hx => ?_
    by_cases hk : k = id
    · subst hk
      rw [hr, Option.some.injEq] at hx
      simp [hissued, hx]
    · simp only [hk, if_false]
      split <;> omega
  rw [h.sum_balances hfree]
  omega

/-- The tokens of a purchase can be issued, if they are not yet. -/
theorem grants_purchase (h : Ledgers es g v) (hfree : g.book.FinalizeIdFree)
    (hr : g.book.purchases.get? id = some r) :
    v.issuance.Grants id r.beneficiary r.plan.result.tokensAllocated ∧
      v.issuance.issuances.contains id = issuedFor es id := by
  have hiff := h.issue_iff (h.not_mem_closingIssues hfree hr)
  cases hget : v.issuance.issuances.get? id with
  | some p =>
      have hmem := (hiff p.1 p.2).1 hget
      obtain ⟨r', hr', heq⟩ := (h.account id).issue_eq hmem rfl
      rw [hr, Option.some.injEq] at hr'
      subst hr'
      obtain ⟨-, hrecipient, hamount⟩ := Effect.issue.inj heq
      have hissued : issuedFor es id = true := List.any_eq_true.2 ⟨_, hmem, rfl⟩
      exact ⟨.inl (by rw [hget, ← hrecipient, ← hamount]),
        by rw [Directory.contains, hget, hissued]; rfl⟩
  | none =>
      have hissued : issuedFor es id = false := by
        rw [← Bool.not_eq_true, issuedFor, List.any_eq_true]
        rintro ⟨x, hx, hissue⟩
        obtain ⟨r', -, rfl⟩ := (h.account id).issue_eq hx hissue
        rw [(hiff _ _).2 hx] at hget
        contradiction
      have hlt := h.sum_balances_add_lt hfree hr hissued
      have hbalance := v.issuance.val_balance_le r.beneficiary
      exact ⟨.inr ⟨hget, by omega⟩, by rw [Directory.contains, hget, hissued]; rfl⟩

end Ledgers

/-! ## finalizing and retrying -/

/-- The world shows a sale at a moment with its services. -/
structure World.Shows (w : World) (s : System) (v : Services) : Prop where
  book : w.book = s.book
  now : w.now = s.now
  services : w.services = v

/-- Some services accept every effect. -/
theorem exists_accepting : ∃ reply : (c : Call) → c.Answer, ∀ x, reply (.effect x) = .ok () :=
  ⟨Sample.reply, fun _ => rfl⟩

/-- A closed sale without flags can start to finalize. -/
theorem Book.beginFinalize_eq {b : Book} {now : Instant} {t : Terms} (ht : b.terms = some t)
    (hclosed : b.state now = .closed) (hflags : b.finalized = false ∧ b.finalizing = false) :
    b.beginFinalize now =
      .ok (⟨t.config.saleId, t.config.treasury, t.tiers.totalRemaining, t.tiers.totalSold⟩,
        { b with finalizing := true }) := by
  simp [beginFinalize, hflags, hclosed, ht]

namespace Ledgers

variable {es : List Event} {g : Tracked} {v : Services} {id : Uuid} {r : PurchaseRecord} {w : World}

/-- **In a reliable world finalizing issues the unsold tokens to the treasury.** -/
theorem finalize_adds (h : Ledgers es g v) (hfree : g.book.FinalizeIdFree)
    (hclosed : g.book.state w.now = .closed)
    (hflags : g.book.finalized = false ∧ g.book.finalizing = false) (hbook : w.book = g.book)
    (hv : w.services = v) (hw : w.Reliable) :
    ∃ c, g.book.config? = some c ∧
      w.Adds Sale.finalize (.ok g.book.totalRemaining) c.treasury g.book.totalRemaining.val ∧
      (World.run Sale.finalize w).2.book.finalized = true := by
  obtain ⟨reply, hreply⟩ := exists_accepting
  obtain ⟨t, ht, -⟩ := Book.state_eq_closed_iff.1 hclosed
  subst hv
  have hunsold : g.book.totalRemaining = t.tiers.totalRemaining := by
    simp [Book.totalRemaining, ht]
  obtain ⟨hnone, hroom⟩ := h.grants_closing hfree hflags
    (c := ⟨t.config.saleId, t.config.treasury, t.tiers.totalRemaining, t.tiers.totalSold⟩)
    (by simp [Book.closing?, ht])
  have hbegin := Book.beginFinalize_eq ht hclosed hflags
  have halone := alone_finalize hreply (hbook ▸ hbegin)
  have hnone : w.issuance.issuances.get? (Sale.finalizeId t.config.saleId) = none := hnone
  have hdue : w.issuance.due (Sale.finalizeId t.config.saleId) t.tiers.totalRemaining =
      t.tiers.totalRemaining.val := by simp [Issuance.due, Directory.contains, hnone]
  have heffects : ∀ x ∈ (Sale.finalize.alone reply w.now w.book).effects, x.isIssue = true →
      x = .issue (Sale.finalizeId t.config.saleId) t.config.treasury t.tiers.totalRemaining := by
    intro x hx hissue
    rw [halone, Book.Closing.issues] at hx
    split at hx <;> simp only [List.nil_append, List.cons_append, List.mem_cons,
      List.not_mem_nil, or_false] at hx
    · subst hx
      contradiction
    · obtain rfl | rfl := hx
      · rfl
      · contradiction
  obtain ⟨hadds, hend⟩ := World.adds_of_alone hreply Program.callsEffects_finalize hw heffects
    (.inr ⟨hnone, hroom⟩) fun hmem => by
      rw [halone, Book.Closing.issues] at hmem
      split at hmem
      next hz => rw [hdue, Quantity.isZero_iff.1 hz]
      · simp at hmem
  rw [halone, hdue] at hadds
  rw [halone] at hend
  exact ⟨t.config, by simp [Book.config?, ht], hunsold ▸ hadds, by rw [hend]; rfl⟩

/-- **In a reliable world a settlement tried again comes to its end.** -/
theorem retry_adds (h : Ledgers es g v) (hfree : g.book.FinalizeIdFree)
    (hr : g.book.purchases.get? id = some r) (hsettled : r.isSettled = false)
    (hflight : r.settlement.inFlight = false) (hbook : w.book = g.book) (hv : w.services = v)
    (hw : w.Reliable) :
    w.Adds (Sale.retrySettlement id) (.ok .complete) r.beneficiary
      (w.issuance.due id r.plan.result.tokensAllocated) := by
  obtain ⟨reply, hreply⟩ := exists_accepting
  obtain ⟨own, configured, -⟩ := (h.account id).of_resting hr hflight
  subst hv own
  obtain ⟨t, ht⟩ := Option.isSome_iff_exists.1 configured
  have halone := alone_retrySettlement hreply w.now (b := w.book) (hbook ▸ ht) (hbook ▸ hr)
    hsettled hflight
  change (settle r.purchaseId).alone reply w.now w.book = _ at halone
  obtain ⟨hgrants, hcontains⟩ := h.grants_purchase hfree hr
  have heffects : ∀ x ∈ ((settle r.purchaseId).alone reply w.now w.book).effects,
      x.isIssue = true →
      x = .issue r.purchaseId r.beneficiary r.plan.result.tokensAllocated := by
    intro x hx hissue
    rw [halone] at hx
    obtain ⟨step, -, rfl⟩ := List.mem_map.1 hx
    exact ((r.performs_effectOf _ step).issue_eq hissue).2
  obtain ⟨hadds, -⟩ := World.adds_of_alone hreply (Program.callsEffects_settle r.purchaseId) hw
    heffects hgrants fun hmem => by
      -- an issue that is not outstanding has landed
      rw [halone] at hmem
      have hdone : r.settlement.issued = true := by
        by_contra hissued
        refine hmem (List.mem_map.2 ⟨.issue, ?_, rfl⟩)
        simp [PurchaseRecord.outstandingAt_eq, hissued]
      have hissued := ((h.conserves hfree).recorded r.purchaseId r hr hflight).1
      rw [Issuance.due, if_pos]
      exact hcontains.trans (hissued.symm.trans hdone)
  rw [halone] at hadds
  exact hadds

end Ledgers

/-! ## every run -/

/-- Some caller is always idle. -/
theorem Run.exists_idle {clock : Instant → Instant → Prop} {t : Instant} {es : List Event}
    {s : System} (h : Run clock (.start t) es s) : ∃ i, s.sessions i = none := by
  suffices hall : ∃ n, ∀ i, n ≤ i → s.sessions i = none from
    hall.imp fun n hn => hn n (Nat.le_refl n)
  have hsession {s : System} {i : Nat} (x : Option Session)
      (hs : ∃ n, ∀ j, n ≤ j → s.sessions j = none) :
      ∃ n, ∀ j, n ≤ j → (s.withSession i x).sessions j = none := by
    obtain ⟨n, hn⟩ := hs
    refine ⟨max n (i + 1), fun j hj => ?_⟩
    have hji : j ≠ i := by omega
    simpa [System.withSession, hji] using hn j (by omega)
  induction h with
  | refl => exact ⟨0, fun i _ => rfl⟩
  | step _ hs ih =>
      cases hs with
      | tick => exact ih
      | begin | lock | answer | finish => exact hsession _ ih

/-- Purchases of a closed sale keep their identities. -/
theorem Book.FinalizeIdFree.of_sealed {b b' : Book} (h : b.FinalizeIdFree) (hs : b.Sealed b') :
    b'.FinalizeIdFree := by
  intro c hc
  rw [config?, hs.terms] at hc
  cases hget : b'.purchases.get? (Sale.finalizeId c.saleId) with
  | none => rfl
  | some r =>
      have hmem := mem_filed hget
      rw [hs.filed] at hmem
      obtain ⟨⟨id, x⟩, hx, heq⟩ := List.mem_map.1 hmem
      obtain ⟨rfl, -⟩ := Prod.mk.inj heq
      have hnone := h c hc
      rw [Directory.get?_eq_some_iff.2 hx] at hnone
      contradiction

/-- While no operation is under way nobody is finalizing the sale. -/
theorem Run.finalizing_of_isQuiet {t : Instant} {es : List Event} {s : System}
    (h : Run Forward (.start t) es s) (hquiet : s.IsQuiet) (hfinalized : s.book.finalized = false) :
    s.book.finalizing = false := by
  obtain ⟨g, hg, htracks⟩ := h.finalization
  rw [← htracks.1] at hfinalized ⊢
  cases hg with
  | pending others flags => exact flags.2
  | underway holder =>
      rw [htracks.idle (hquiet _)] at holder
      contradiction
  | untold holder others flag | told others flag =>
      rw [hfinalized] at flag
      contradiction

/-- Finalizing the sale that a world shows, and retrying its purchases at any
time after that. -/
structure Finalizes (s : System) (w : World) : Prop where
  /-- All that is unsold goes to the treasury, and nothing to anybody else. -/
  closing : ∃ c, s.book.config? = some c ∧
    w.Adds Sale.finalize (.ok s.book.totalRemaining) c.treasury s.book.totalRemaining.val
  finalized : (World.run Sale.finalize w).2.book.finalized = true
  /-- A pending purchase completes once it is retried, and its beneficiary gets
  the tokens that are not issued yet. -/
  pending : ∀ (es' : List Event) (s' : System) (v' : Services) (w' : World),
    ServedRun Forward { s with book := (World.run Sale.finalize w).2.book }
      (World.run Sale.finalize w).2.services es' s' v' →
    w'.Shows s' v' → w'.Reliable → ∀ id r, s'.book.purchases.get? id = some r →
    r.isSettled = false → r.settlement.inFlight = false →
    w'.Adds (Sale.retrySettlement id) (.ok .complete) r.beneficiary
      (w'.issuance.due id r.plan.result.tokensAllocated)

/-- **A closed sale can be finalized, and its purchases settled.**  In every
state of a sale that is closed and that nobody has finalized or is finalizing
(while no operation is under way nobody is: `Run.finalizing_of_isQuiet`), once
no failure is left and as long as no purchase has the identity under
which the unsold tokens are issued. -/
theorem finalizes_of_run {t : Instant} {es : List Event} {s : System} {v : Services} {w : World}
    (h : ServedRun Forward (.start t) .empty es s v) (hfree : s.book.FinalizeIdFree)
    (hclosed : s.state = .closed) (hflags : s.book.finalized = false ∧ s.book.finalizing = false)
    (hw : w.Shows s v) (hreliable : w.Reliable) : Finalizes s w := by
  obtain ⟨g, hg, hbook, -⟩ := h.ledgers
  obtain ⟨c, hc, hadds, hfinalized⟩ := hg.finalize_adds (hbook ▸ hfree)
    (by rw [hbook, hw.now]; exact hclosed) (hbook ▸ hflags) (hw.book.trans hbook.symm)
    hw.services hreliable
  refine ⟨⟨c, hbook ▸ hc, hbook ▸ hadds⟩, hfinalized, ?_⟩
  intro es' s' v' w' h' hw' hreliable' id r hr hsettled hflight
  -- finalizing is part of the run, and no purchase is made after it
  obtain ⟨i, hi⟩ := h.run.exists_idle
  obtain ⟨es₁, h₁⟩ := ServedRun.ofWorld Forward i .finalize hi hw.book hw.now
  rw [hw.services] at h₁
  have h₂ := h₁.append h'
  have hsealed := ((h.run.advances h₂.run).closed hclosed).2
  obtain ⟨g', hg', hbook', -⟩ := (h.append h₂).ledgers
  exact hg'.retry_adds (hbook' ▸ hfree.of_sealed hsealed) (hbook' ▸ hr) hsettled hflight
    (hw'.book.trans hbook'.symm) hw'.services hreliable'

/-- Finalizing a sale while a purchase is pending, whose tokens are issued after that. -/
theorem finalizes_with_pending_purchase : ∃ es s w r,
    ServedRun Forward (.start Sample.early) .empty es s w.services ∧
    s.book.totalRemaining.val = 70 ∧ s.book.purchases.get? ⟨7, by decide⟩ = some r ∧
    r.isSettled = false ∧ w.issuance.due ⟨7, by decide⟩ r.plan.result.tokensAllocated = 30 ∧
    Finalizes s w := by
  obtain ⟨es, h⟩ := Sample.run_unsettled Sample.request
  generalize hw : Sample.unsettled Sample.request = w at h
  obtain ⟨hfree, hclosed, hflags, hreliable, hunsold, hpending⟩ : w.system.book.FinalizeIdFree ∧
      w.system.state = .closed ∧
      (w.system.book.finalized = false ∧ w.system.book.finalizing = false) ∧ w.Reliable ∧
      w.system.book.totalRemaining.val = 70 ∧
      (w.system.book.purchases.get? ⟨7, by decide⟩).any fun r => r.isSettled = false ∧
        w.issuance.due ⟨7, by decide⟩ r.plan.result.tokensAllocated = 30 := by
    rw [← hw]
    decide +kernel
  obtain ⟨r, hr, hpending⟩ := (Option.any_eq_true ..).1 hpending
  obtain ⟨hsettled, hdue⟩ := of_decide_eq_true hpending
  exact ⟨es, w.system, w, r, h, hunsold, hr, hsettled, hdue,
    finalizes_of_run h hfree hclosed hflags ⟨rfl, rfl, rfl⟩ hreliable⟩

/-! ## a purchase under the identity of the closing -/

/-- What was once issued under an identity stays so. -/
theorem ServedRun.issuances_mono {t : Instant} {es es' : List Event} {s s' : System}
    {v v' : Services} (h : ServedRun Forward (.start t) .empty es s v)
    (h' : ServedRun Forward s v es' s' v') {id : Uuid} {p : InvestorId × Tokens}
    (hp : v.issuance.issuances.get? id = some p) : v'.issuance.issuances.get? id = some p := by
  obtain ⟨g, hg, -⟩ := h.ledgers
  obtain ⟨g', hg', -⟩ := (h.append h').ledgers
  rw [hg'.books.issued, effectsOf, List.flatMap_append]
  exact List.mem_append_left _ ((hg.books.issued id p.1 p.2).1 hp)

/-- **Whoever gets other tokens under the identity of the closing keeps a closed
sale from ever being finalized.** -/
theorem never_finalized {t : Instant} {es es' : List Event} {s s' : System} {v v' : Services}
    (h : ServedRun Forward (.start t) .empty es s v) (hclosed : s.state = .closed)
    {c : Book.Closing} (hc : s.book.closing? = some c) (hunsold : c.unsold.isZero = false)
    {p : InvestorId × Tokens}
    (hp : v.issuance.issuances.get? (Sale.finalizeId c.saleId) = some p)
    (hne : p ≠ (c.treasury, c.unsold)) (h' : ServedRun Forward s v es' s' v') :
    s'.book.finalized = false := by
  by_contra hfinalized
  rw [Bool.not_eq_false] at hfinalized
  obtain ⟨g', hg', hbook', -⟩ := (h.append h').ledgers
  have hc' : s'.book.closing? = some c :=
    (ClosingIssued.closing?_of_advances (h.run.advances h'.run) hclosed).trans hc
  obtain ⟨c', hc'', hissues⟩ := hg'.closing.after (.inl (hbook' ▸ hfinalized))
  rw [hbook', hc', Option.some.injEq] at hc''
  subst hc''
  -- so the unsold tokens were issued under the identity too
  have hmem : .issue (Sale.finalizeId c.saleId) c.treasury c.unsold ∈
      closingIssues (es ++ es') := by
    simp [hissues, Book.Closing.issues, hunsold]
  have hissued := (hg'.books.issued _ _ _).2 ((hg'.attributed _ _ rfl).2 (.inr hmem))
  rw [h.issuances_mono h' hp, Option.some.injEq] at hissued
  exact hne hissued

/-- The purchase under the identity of the closing. -/
def Sample.squatting : PurchaseRequest :=
  { request with purchaseId := some (Sale.finalizeId config.saleId) }

/-- It is settled and the sale has ended. -/
def Sample.squatted : World :=
  (World.run (Operation.retrySettlement (Sale.finalizeId config.saleId)).program
    (unsettled squatting)).2

/-- Without the condition on identities a closed sale may not be finalized, now
or ever: a purchase of thirty tokens keeps seventy from the treasury. -/
theorem not_finalized_after_squatting : ∃ es s w,
    ServedRun Forward (.start Sample.early) .empty es s w.services ∧
    s.state = .closed ∧ (s.book.finalized = false ∧ s.book.finalizing = false) ∧
    w.Shows s w.services ∧ w.Reliable ∧ s.book.totalRemaining.val = 70 ∧
    (World.run Sale.finalize w).1.isOk = false ∧
    ∀ es' s' v', ServedRun Forward s w.services es' s' v' → s'.book.finalized = false := by
  obtain ⟨es₁, h₁⟩ := Sample.run_unsettled Sample.squatting
  obtain ⟨es₂, h₂⟩ := h₁.andRun (.retrySettlement (Sale.finalizeId Sample.config.saleId))
  rw [← Sample.squatted] at h₂
  let w := Sample.squatted
  obtain ⟨hclosed, hflags, hreliable, hunsold, hrefused, hother⟩ : w.system.state = .closed ∧
      (w.system.book.finalized = false ∧ w.system.book.finalizing = false) ∧ w.Reliable ∧
      w.system.book.totalRemaining.val = 70 ∧ (World.run Sale.finalize w).1.isOk = false ∧
      w.system.book.closing?.any fun c => c.unsold.isZero = false ∧
        (w.issuance.issuances.get? (Sale.finalizeId c.saleId)).any fun p =>
          p ≠ (c.treasury, c.unsold) := by
    decide +kernel
  obtain ⟨c, hc, hother⟩ := (Option.any_eq_true ..).1 hother
  obtain ⟨hzero, hother⟩ := of_decide_eq_true hother
  obtain ⟨p, hp, hne⟩ := (Option.any_eq_true ..).1 hother
  exact ⟨es₂, w.system, w, h₂, hclosed, hflags, ⟨rfl, rfl, rfl⟩, hreliable, hunsold, hrefused,
    fun es' s' v' h' => never_finalized h₂ hclosed hc hzero hp (of_decide_eq_true hne) h'⟩

end TokenSale
