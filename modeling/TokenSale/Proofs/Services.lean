import TokenSale.Memory.World
import TokenSale.Proofs.Protocol
import TokenSale.Proofs.Totals

/-!
# TokenSale.Proofs.Services

A sale that calls upon the token ledger and the settlement in memory.  They
answer for themselves, anybody may make their next calls fail at any time, and
what they keep is exactly what they have accepted.

* `Services.Sees`, `ServedRun` — runs in which they answer the callers;
* `ServedRun.ofWorld` — running an operation in a world is one of them;
* `Issuance.issue_ok`, `issuances_issue_ok`, `Transfers.make_ok` — one call that
  is accepted;
* `Services.Books` — what they keep and what they have accepted.
-/

namespace TokenSale

/-! ## runs with services -/

/-- The token ledger and the settlement in memory. -/
structure Services where
  issuance : Issuance
  transfers : Transfers

namespace Services

/-- Nothing was issued and nothing was paid. -/
def empty : Services := ⟨.empty, .empty⟩

/-- The answer to an effect and the services after it; events go elsewhere. -/
def perform (v : Services) : Effect → Option (Except CollaboratorError Unit × Services)
  | .issue id recipient amount =>
    let (a, issuance) := v.issuance.issue id recipient amount
    some (a, { v with issuance })
  | .forward purchaseId currency amount destination =>
    let (a, transfers) := v.transfers.forward ⟨purchaseId, currency, amount, destination⟩
    some (a, { v with transfers })
  | .refund purchaseId currency amount investor =>
    let (a, transfers) := v.transfers.refund ⟨purchaseId, currency, amount, investor.name⟩
    some (a, { v with transfers })
  | .emit _ => none

/-- They answer what they are asked, and nothing else concerns them. -/
def Sees (v : Services) (e : Event) (v' : Services) : Prop :=
  match e with
  | .answer _ _ (.effect x) a =>
    match v.perform x with
    | some answered => answered = (a, v')
    | none => v' = v
  | _ => v' = v

/-- Other calls of theirs will fail next. -/
def Rigged (v v' : Services) : Prop :=
  ∃ failures forwardFailures refundFailures,
    v' = ⟨{ v.issuance with failures }, { v.transfers with forwardFailures, refundFailures }⟩

end Services

/-- What happened from one moment to another in a sale with services in memory. -/
inductive ServedRun (clock : Instant → Instant → Prop) (s : System) (v : Services) :
    List Event → System → Services → Prop
  | refl : ServedRun clock s v [] s v
  | step {es : List Event} {s' s'' : System} {v' v'' : Services} {e : Event}
    (h : ServedRun clock s v es s' v') (hs : Step clock s' e s'') (hv : v'.Sees e v'') :
    ServedRun clock s v (es ++ [e]) s'' v''
  | rig {es : List Event} {s' : System} {v' v'' : Services} (h : ServedRun clock s v es s' v')
    (hv : v'.Rigged v'') : ServedRun clock s v es s' v''

namespace ServedRun

variable {clock : Instant → Instant → Prop} {s s' s'' : System} {v v' v'' : Services} {e : Event}
  {es es' : List Event}

/-- It is a run of the sale. -/
theorem run (h : ServedRun clock s v es s' v') : Run clock s es s' := by
  induction h with
  | refl => exact .refl
  | step _ hs _ ih => exact ih.step hs
  | rig _ _ ih => exact ih

theorem append (h : ServedRun clock s v es s' v') (h' : ServedRun clock s' v' es' s'' v'') :
    ServedRun clock s v (es ++ es') s'' v'' := by
  induction h' with
  | refl => simpa using h
  | step _ hs hv ih => simpa using ih.step hs hv
  | rig _ hv ih => exact ih.rig hv

/-- What holds at the start and is kept by every step holds after every run. -/
theorem invariant {P : List Event → Tracked → Services → Prop} {t : Instant}
    (hstart : P [] (.start t) .empty)
    (hstep : ∀ {es g e g' v v'}, P es g v → Tracked.Step clock g e g' → v.Sees e v' →
      P (es ++ [e]) g' v')
    (hrig : ∀ {es g v v'}, P es g v → v.Rigged v' → P es g v')
    (h : ServedRun clock (.start t) .empty es s v) : ∃ g, P es g v ∧ g.Tracks s := by
  induction h with
  | refl => exact ⟨.start t, hstart, Tracked.tracks_start t⟩
  | step _ hs hv ih =>
      obtain ⟨g, hg, htracks⟩ := ih
      obtain ⟨g', hstep', htracks'⟩ := hs.tracked htracks
      exact ⟨g', hstep hg hstep' hv, htracks'⟩
  | rig _ hv ih =>
      obtain ⟨g, hg, htracks⟩ := ih
      exact ⟨g, hrig hg hv, htracks⟩

end ServedRun

/-! ## one operation in a world -/

namespace World

/-- The services of a world that keep tokens and money. -/
def services (w : World) : Services := ⟨w.issuance, w.transfers⟩

theorem sees_serve (w : World) (i : Nat) (o : Operation) (c : Call) :
    w.services.Sees (.answer i o c (w.serve c).1) (w.serve c).2.services := by
  cases c with
  | compliance investor => rfl
  | rate currency =>
      simp only [serve]
      split <;> rfl
  | effect x => cases x <;> rfl

/-- Calls leave the sale and its clock alone. -/
theorem serve_book (w : World) (c : Call) : (w.serve c).2.book = w.book ∧
    (w.serve c).2.now = w.now := by
  cases c with
  | compliance investor => exact ⟨rfl, rfl⟩
  | rate currency =>
      simp only [serve]
      split <;> exact ⟨rfl, rfl⟩
  | effect x => cases x <;> exact ⟨rfl, rfl⟩

@[simp] theorem run_done {α : Type} (a : α) (w : World) : run (.done a) w = (a, w) := rfl

@[simp] theorem run_locked {α : Type} (f : Book → Instant → Book) (k : Book → Instant → Program α)
    (w : World) : run (.locked f k) w = run (k w.book w.now) { w with book := f w.book w.now } :=
  rfl

@[simp] theorem run_call {α : Type} (c : Call) (k : c.Answer → Program α) (w : World) :
    run (.call c k) w = run (k (w.serve c).1) (w.serve c).2 := rfl

end World

/-- What a world sees of an occurrence: it answers the calls, and nothing but
its book changes otherwise. -/
def World.Sees (w : World) (e : Event) (w' : World) : Prop :=
  match e with
  | .answer _ _ c a => w.serve c = (a, w')
  | _ => ∃ book, w' = { w with book }

theorem World.Sees.services {w w' : World} {e : Event} (h : w.Sees e w') :
    w.services.Sees e w'.services := by
  cases e with
  | answer i o c a =>
      have hanswer := w.sees_serve i o c
      rwa [show w.serve c = (a, w') from h] at hanswer
  | tick | begin | lock | finish =>
      obtain ⟨book, rfl⟩ := h
      rfl

/-- What every step keeps, running what is left of an operation in a world keeps. -/
theorem World.run_rest {clock : Instant → Instant → Prop} {P : List Event → System → World → Prop}
    (hstep : ∀ {es s w e s' w'}, P es s w → w.now = s.now → Step clock s e s' → w.Sees e w' →
      P (es ++ [e]) s' w') {i : Nat} {o : Operation} (p : Program o.Result) {es : List Event}
    {s : System} {w : World} (h : P es s w) (hi : s.sessions i = some ⟨o, p⟩)
    (hbook : w.book = s.book) (hnow : w.now = s.now) :
    ∃ es', P (es ++ es' ++ [.finish i o (run p w).1])
      { s.withSession i none with book := (run p w).2.book } (run p w).2 := by
  induction p generalizing es s w with
  | done result =>
      refine ⟨[], ?_⟩
      have hfinish : Step clock s (.finish i o result) (s.withSession i none) := .finish hi
      have hseen : w.Sees (.finish i o result) w := ⟨w.book, rfl⟩
      simpa [System.withSession, hbook] using hstep h hnow hfinish hseen
  | locked f k ih =>
      have hseen : w.Sees (.lock i) { w with book := f s.book s.now } := ⟨_, rfl⟩
      obtain ⟨es', hkept⟩ := ih s.book s.now (hstep h hnow (.lock hi) hseen)
        (by simp [System.withSession]) rfl hnow
      refine ⟨.lock i :: es', ?_⟩
      simpa [System.withSession, hbook, hnow] using hkept
  | call c k ih =>
      obtain ⟨hsame, hclock⟩ := w.serve_book c
      have hseen : w.Sees (.answer i o c (w.serve c).1) (w.serve c).2 := rfl
      obtain ⟨es', hkept⟩ := ih (w.serve c).1 (hstep h hnow (.answer _ hi) hseen)
        (by simp [System.withSession]) (hsame.trans hbook) (hclock.trans hnow)
      refine ⟨.answer i o c (w.serve c).1 :: es', ?_⟩
      simpa [System.withSession] using hkept

/-- The same from the beginning of an operation on. -/
theorem World.run_operation (clock : Instant → Instant → Prop)
    {P : List Event → System → World → Prop}
    (hstep : ∀ {es s w e s' w'}, P es s w → w.now = s.now → Step clock s e s' → w.Sees e w' →
      P (es ++ [e]) s' w') (i : Nat) (o : Operation) {s : System} {w : World} (h : P [] s w)
    (hi : s.sessions i = none) (hbook : w.book = s.book) (hnow : w.now = s.now) :
    ∃ es, P (.begin i o :: es ++ [.finish i o (run o.program w).1])
      { s with book := (run o.program w).2.book } (run o.program w).2 := by
  have hseen : w.Sees (.begin i o) w := ⟨w.book, rfl⟩
  obtain ⟨es, hkept⟩ := run_rest hstep o.program (hstep h hnow (.begin o hi) hseen) (i := i)
    (by simp [System.withSession]) hbook hnow
  refine ⟨es, ?_⟩
  simpa [System.withSession, ← hi] using hkept

/-- **Running an operation in a world is one of the runs.** -/
theorem ServedRun.ofWorld (clock : Instant → Instant → Prop) (i : Nat) (o : Operation) {s : System}
    {w : World} (h : s.sessions i = none) (hbook : w.book = s.book) (hnow : w.now = s.now) :
    ∃ es, ServedRun clock s w.services
      (.begin i o :: es ++ [.finish i o (World.run o.program w).1])
      { s with book := (World.run o.program w).2.book } (World.run o.program w).2.services :=
  World.run_operation clock (P := fun es s' w' => ServedRun clock s w.services es s' w'.services)
    (fun hrun _ hs hw => hrun.step hs hw.services) i o .refl h hbook hnow

namespace World

/-- Its sale, with no operation under way. -/
def system (w : World) : System := .idle w.book w.now

/-- No operation moves the clock. -/
theorem now_run {α : Type} (p : Program α) (w : World) : (run p w).2.now = w.now := by
  induction p generalizing w with
  | done result => rfl
  | locked f k ih => exact ih ..
  | call c k ih => exact (ih ..).trans (w.serve_book c).2

end World

/-- A program run by itself changes the system in its book only. -/
theorem World.system_run (o : Operation) (w : World) : (World.run o.program w).2.system =
    { w.system with book := (World.run o.program w).2.book } := by
  rw [World.system, World.now_run]
  rfl

/-- A run goes on with an operation in a world. -/
theorem ServedRun.andRun {clock : Instant → Instant → Prop} {s : System} {v : Services}
    {es : List Event} {w : World} (h : ServedRun clock s v es w.system w.services) (o : Operation) :
    ∃ es', ServedRun clock s v es' (World.run o.program w).2.system
      (World.run o.program w).2.services := by
  obtain ⟨es', h'⟩ := ServedRun.ofWorld clock 0 o (s := w.system) (w := w) rfl rfl rfl
  exact ⟨_, h.append (w.system_run o ▸ h')⟩

/-! ## one call -/

/-- With no failure left, none is taken. -/
theorem Failures.take_of_left {f : Failures} (h : f.left = 0) : f.take = (false, ⟨0⟩) := by
  simp [take, h]

/-- A failure that is left is taken, and one fewer is left. -/
theorem Failures.take_of_left_ne_zero {f : Failures} (h : f.left ≠ 0) :
    f.take = (true, ⟨f.left - 1⟩) := by
  simp [take, h]

namespace Issuance

variable {l l' : Issuance} {id : Uuid} {recipient : InvestorId} {amount : Tokens}

/-- Tokens are issued once for an id; the same call again changes nothing. -/
theorem issue_ok (h : l.issue id recipient amount = (.ok (), l')) :
    (l.issuances.get? id = some (recipient, amount) ∧ l' = l) ∨
      (l.issuances.get? id = none ∧ ∃ next : Tokens,
        next.val = (l.balance recipient).val + amount.val ∧
        l' = { l with
          balances := l.balances.insert recipient next
          issuances := l.issuances.insert id (recipient, amount) }) := by
  unfold issue at h
  split at h
  · simp at h
  unfold record at h
  split at h
  next hrecord =>
    simp only [Prod.mk.injEq, true_and] at h
    subst h
    split at hrecord
    next earlier hearlier =>
      split at hrecord
      next heq =>
        subst heq
        simp only [Except.ok.injEq] at hrecord
        exact .inl ⟨hearlier, hrecord.symm⟩
      · contradiction
    next hnone =>
      split at hrecord
      · contradiction
      next next hnext =>
        simp only [Except.ok.injEq] at hrecord
        exact .inr ⟨hnone, next, Quantity.add?_eq_some_iff.1 hnext, hrecord.symm⟩
  · simp at h

/-- What is recorded after a call that succeeds: what was, and that call. -/
theorem issuances_issue_ok (h : l.issue id recipient amount = (.ok (), l')) (k : Uuid)
    (i : InvestorId) (n : Tokens) : l'.issuances.get? k = some (i, n) ↔
      l.issuances.get? k = some (i, n) ∨ k = id ∧ i = recipient ∧ n = amount := by
  obtain ⟨hearlier, rfl⟩ | ⟨hnone, next, -, rfl⟩ := issue_ok h
  · constructor
    · exact .inl
    · rintro (hk | ⟨rfl, rfl, rfl⟩)
      · exact hk
      · exact hearlier
  · simp only [Directory.get?_insert]
    by_cases hk : k = id
    · subst hk
      simp [hnone, eq_comm]
    · simp [hk]

/-- A call that is refused issues nothing. -/
theorem issue_error {e : CollaboratorError} (h : l.issue id recipient amount = (.error e, l')) :
    l'.issuances = l.issuances ∧ l'.balances = l.balances := by
  unfold issue at h
  split at h
  · simp only [Prod.mk.injEq] at h
    exact h.2 ▸ ⟨rfl, rfl⟩
  split at h
  · simp at h
  · simp only [Prod.mk.injEq] at h
    exact h.2 ▸ ⟨rfl, rfl⟩

end Issuance

/-- A payment is passed on, or it is given back. -/
inductive TransferKind where
  | forward
  | refund
  deriving DecidableEq

/-- What is answered to a call of a kind that was made to fail. -/
def TransferKind.injected : TransferKind → CollaboratorError
  | forward => ⟨.settlement, "forward: injected failure"⟩
  | refund => ⟨.settlement, "refund: injected failure"⟩

namespace Transfers

variable {l l' : Transfers} {k : TransferKind} {t : Transfer}

/-- The transfers of a kind. -/
def kept (l : Transfers) : TransferKind → Directory Uuid Transfer
  | .forward => l.forwards
  | .refund => l.refunds

/-- How many of the next calls of a kind fail. -/
def failures (l : Transfers) : TransferKind → Failures
  | .forward => l.forwardFailures
  | .refund => l.refundFailures

/-- The settlement with everything about a kind replaced. -/
def withKind (l : Transfers) (k : TransferKind) (d : Directory Uuid Transfer) (f : Failures) :
    Transfers :=
  match k with
  | .forward => { l with forwards := d, forwardFailures := f }
  | .refund => { l with refunds := d, refundFailures := f }

/-- One call to transfer a payment. -/
def make (l : Transfers) : TransferKind → Transfer → Except CollaboratorError Unit × Transfers
  | .forward => l.forward
  | .refund => l.refund

@[simp] theorem kept_withKind (l : Transfers) (k k' : TransferKind) (d : Directory Uuid Transfer)
    (f : Failures) : (l.withKind k d f).kept k' = if k' = k then d else l.kept k' := by
  cases k <;> cases k' <;> rfl

@[simp] theorem failures_withKind (l : Transfers) (k k' : TransferKind)
    (d : Directory Uuid Transfer) (f : Failures) :
    (l.withKind k d f).failures k' = if k' = k then f else l.failures k' := by
  cases k <;> cases k' <;> rfl

/-- Failures to come leave all transfers. -/
@[simp] theorem kept_withKind_kept (l : Transfers) (k : TransferKind) (f : Failures) :
    (l.withKind k (l.kept k) f).kept = l.kept := by
  cases k <;> funext k' <;> cases k' <;> rfl

@[simp] theorem withKind_self (l : Transfers) (k : TransferKind) :
    l.withKind k (l.kept k) (l.failures k) = l := by
  cases k <;> rfl

/-- Unless it was made to fail, a call is accepted. -/
theorem make_of_left (h : (l.failures k).left = 0) (t : Transfer) :
    l.make k t = (.ok (), l.withKind k (keepFirst (l.kept k) t) (l.failures k)) := by
  cases k
  · have hleft : l.forwardFailures.left = 0 := h
    simp [make, forward, Failures.take_of_left hleft, withKind, kept, failures]
  · have hleft : l.refundFailures.left = 0 := h
    simp [make, refund, Failures.take_of_left hleft, withKind, kept, failures]

/-- A call that was made to fail changes nothing but the failures to come. -/
theorem make_of_left_ne_zero (h : (l.failures k).left ≠ 0) (t : Transfer) : l.make k t =
    (.error k.injected, l.withKind k (l.kept k) ⟨(l.failures k).left - 1⟩) := by
  cases k
  · have hleft : l.forwardFailures.left ≠ 0 := h
    simp [make, forward, Failures.take_of_left_ne_zero hleft, withKind, kept, failures,
      TransferKind.injected]
  · have hleft : l.refundFailures.left ≠ 0 := h
    simp [make, refund, Failures.take_of_left_ne_zero hleft, withKind, kept, failures,
      TransferKind.injected]

/-- A transfer that was accepted met no failure, and is kept unless its identity
was. -/
theorem make_ok (h : l.make k t = (.ok (), l')) : (l.failures k).left = 0 ∧
    l' = l.withKind k (keepFirst (l.kept k) t) (l.failures k) := by
  by_cases hleft : (l.failures k).left = 0
  · rw [make_of_left hleft] at h
    exact ⟨hleft, (Prod.mk.inj h).2.symm⟩
  · rw [make_of_left_ne_zero hleft] at h
    cases h

/-- A call that is refused transfers nothing. -/
theorem make_error {e : CollaboratorError} (h : l.make k t = (.error e, l')) :
    l'.kept = l.kept := by
  by_cases hleft : (l.failures k).left = 0
  · rw [make_of_left hleft] at h
    cases h
  · rw [make_of_left_ne_zero hleft] at h
    obtain ⟨-, rfl⟩ := Prod.mk.inj h
    exact l.kept_withKind_kept k _

/-- What is kept of a purchase after one more transfer. -/
theorem get?_keepFirst (d : Directory Uuid Transfer) (t : Transfer) (id : Uuid) :
    (keepFirst d t).get? id =
      if id = t.purchaseId then some ((d.get? id).getD t) else d.get? id := by
  unfold keepFirst Directory.contains
  by_cases hid : id = t.purchaseId
  · subst hid
    cases hd : d.get? t.purchaseId <;> simp [hd]
  · cases hd : d.get? t.purchaseId <;> simp [hid, Directory.get?_insert]

end Transfers

/-! ## what was accepted is what is kept -/

/-- The effects that are accepted here. -/
def Event.effects : Event → List Effect
  | answer _ _ c a => c.landed a
  | _ => []

/-- The effects that were accepted, on whatever behalf. -/
def effectsOf (es : List Event) : List Effect := es.flatMap Event.effects

theorem Call.landed_error (x : Effect) (e : CollaboratorError) :
    (Call.effect x).landed (.error e) = [] := rfl

theorem effectsOf_append (es : List Event) (e : Event) :
    effectsOf (es ++ [e]) = effectsOf es ++ e.effects := by
  simp [effectsOf]

namespace Services

/-- Payments that are kept and payments that were accepted; `made` is the call
that makes one. -/
structure Keeps (d : Directory Uuid Transfer) (made : Transfer → Effect → Prop)
    (xs : List Effect) : Prop where
  kept : ∀ id t, d.get? id = some t → t.purchaseId = id ∧ ∃ x ∈ xs, made t x
  accepted : ∀ t, ∀ x ∈ xs, made t x → (d.get? t.purchaseId).isSome

/-- The call passes the payment on. -/
def Forwards (t : Transfer) (x : Effect) : Prop :=
  x = .forward t.purchaseId t.currency t.amount t.counterparty

/-- The call refunds the payment. -/
def Refunds (t : Transfer) (x : Effect) : Prop :=
  ∃ investor, investor.name = t.counterparty ∧ x = .refund t.purchaseId t.currency t.amount investor

/-- What the services keep and the effects they have accepted. -/
structure Books (xs : List Effect) (v : Services) : Prop where
  issued : ∀ id recipient amount, v.issuance.issuances.get? id = some (recipient, amount) ↔
    .issue id recipient amount ∈ xs
  /-- All that was issued is held by somebody. -/
  balances : (v.issuance.balances.sumOf fun _ n => n.val) =
    v.issuance.issuances.sumOf fun _ p => p.2.val
  forwarded : Keeps v.transfers.forwards Forwards xs
  refunded : Keeps v.transfers.refunds Refunds xs

namespace Keeps

variable {d : Directory Uuid Transfer} {made : Transfer → Effect → Prop} {xs : List Effect}
  {x : Effect}

theorem empty (made : Transfer → Effect → Prop) : Keeps .empty made [] :=
  ⟨fun _ _ h => by simp at h, fun _ _ h => by simp at h⟩

/-- Another effect is accepted. -/
theorem other (h : Keeps d made xs) (hx : ∀ t, ¬ made t x) : Keeps d made (xs ++ [x]) where
  kept id t ht := by
    obtain ⟨hid, y, hy, hmade⟩ := h.kept id t ht
    exact ⟨hid, y, List.mem_append_left _ hy, hmade⟩
  accepted t y hy hmade := by
    rw [List.mem_append, List.mem_singleton] at hy
    obtain hy | rfl := hy
    · exact h.accepted t y hy hmade
    · exact absurd hmade (hx t)

/-- A payment is accepted; the first one of a purchase is kept. -/
theorem pay (h : Keeps d made xs) {t : Transfer} (ht : made t x)
    (honly : ∀ t', made t' x → t'.purchaseId = t.purchaseId) :
    Keeps (Transfers.keepFirst d t) made (xs ++ [x]) where
  kept id u hu := by
    rw [Transfers.get?_keepFirst] at hu
    split at hu
    next hid =>
      subst hid
      cases hd : d.get? t.purchaseId with
      | none =>
          simp only [hd, Option.getD_none, Option.some.injEq] at hu
          exact hu ▸ ⟨rfl, x, by simp, ht⟩
      | some v =>
          simp only [hd, Option.getD_some, Option.some.injEq] at hu
          obtain ⟨hid, y, hy, hmade⟩ := h.kept _ v hd
          exact hu ▸ ⟨hid, y, List.mem_append_left _ hy, hmade⟩
    · obtain ⟨hid, y, hy, hmade⟩ := h.kept id u hu
      exact ⟨hid, y, List.mem_append_left _ hy, hmade⟩
  accepted u y hy hmade := by
    rw [List.mem_append, List.mem_singleton] at hy
    rw [Transfers.get?_keepFirst]
    split
    · rfl
    next hid =>
      obtain hy | rfl := hy
      · exact h.accepted u y hy hmade
      · exact absurd (honly u hmade) hid

end Keeps

namespace Books

variable {xs : List Effect} {v v' : Services} {x : Effect}

theorem empty : Books [] .empty :=
  ⟨fun _ _ _ => by simp [Services.empty, Issuance.empty], rfl, .empty _, .empty _⟩

/-- Only what is kept matters, not which calls will fail. -/
theorem congr (h : Books xs v) (hissuances : v'.issuance.issuances = v.issuance.issuances)
    (hbalances : v'.issuance.balances = v.issuance.balances)
    (hforwards : v'.transfers.forwards = v.transfers.forwards)
    (hrefunds : v'.transfers.refunds = v.transfers.refunds) : Books xs v' where
  issued := hissuances ▸ h.issued
  balances := by rw [hissuances, hbalances]; exact h.balances
  forwarded := hforwards ▸ h.forwarded
  refunded := hrefunds ▸ h.refunded

theorem rig (h : Books xs v) (hv : v.Rigged v') : Books xs v' := by
  obtain ⟨failures, forwardFailures, refundFailures, rfl⟩ := hv
  exact h.congr rfl rfl rfl rfl

/-- A telling is no matter of the books. -/
theorem emit (h : Books xs v) (event : SaleEvent) : Books (xs ++ [.emit event]) v where
  issued := by simpa using h.issued
  balances := h.balances
  forwarded := h.forwarded.other fun t => by simp [Forwards]
  refunded := h.refunded.other fun t => by simp [Refunds]

/-- An accepted issue is entered in the token ledger, once for its identity. -/
theorem issue {id : Uuid} {recipient : InvestorId} {amount : Tokens} {l : Issuance}
    (h : Books xs v) (hl : v.issuance.issue id recipient amount = (.ok (), l)) :
    Books (xs ++ [.issue id recipient amount]) { v with issuance := l } where
  issued k i n := by
    rw [List.mem_append, List.mem_singleton, Effect.issue.injEq, ← h.issued k i n]
    exact Issuance.issuances_issue_ok hl k i n
  balances := by
    obtain ⟨-, rfl⟩ | ⟨hnone, next, hnext, rfl⟩ := Issuance.issue_ok hl
    · exact h.balances
    · have hbalances := v.issuance.balances.sumOf_insert recipient next fun _ n => n.val
      have hissuances := v.issuance.issuances.sumOf_insert id (recipient, amount) fun _ p => p.2.val
      have hheld : (v.issuance.balances.get? recipient).elim 0 (fun n => n.val) =
          (v.issuance.balance recipient).val := by
        unfold Issuance.balance
        cases v.issuance.balances.get? recipient <;> rfl
      have hsame := h.balances
      simp only [hnone, Option.elim_none] at hissuances
      simp only
      omega
  forwarded := h.forwarded.other fun t => by simp [Forwards]
  refunded := h.refunded.other fun t => by simp [Refunds]

/-- An accepted payment is entered among those forwarded. -/
theorem forward {t : Transfer} {l : Transfers} (h : Books xs v)
    (hl : v.transfers.forward t = (.ok (), l)) :
    Books (xs ++ [.forward t.purchaseId t.currency t.amount t.counterparty])
      { v with transfers := l } := by
  obtain ⟨-, rfl⟩ := Transfers.make_ok (k := .forward) hl
  exact ⟨by simpa using h.issued, h.balances,
    h.forwarded.pay rfl fun t' ht' => (Effect.forward.inj ht').1.symm,
    h.refunded.other fun t => by simp [Refunds]⟩

/-- An accepted refund is entered among those paid back. -/
theorem refund {t : Transfer} {investor : InvestorId} {l : Transfers} (h : Books xs v)
    (ht : investor.name = t.counterparty) (hl : v.transfers.refund t = (.ok (), l)) :
    Books (xs ++ [.refund t.purchaseId t.currency t.amount investor])
      { v with transfers := l } := by
  obtain ⟨-, rfl⟩ := Transfers.make_ok (k := .refund) hl
  refine ⟨by simpa using h.issued, h.balances, h.forwarded.other fun t => by simp [Forwards],
    h.refunded.pay ⟨investor, ht, rfl⟩ fun t' ht' => ?_⟩
  obtain ⟨other, -, heq⟩ := ht'
  exact (Effect.refund.inj heq).1.symm

/-- One answer. -/
theorem answer {i : Nat} {o : Operation} {c : Call} {a : c.Answer} (h : Books xs v)
    (hv : v.Sees (.answer i o c a) v') : Books (xs ++ c.landed a) v' := by
  cases c with
  | compliance investor | rate currency =>
      cases hv
      simpa [Call.landed] using h
  | effect x =>
      -- a call that was refused may use up a failure, but it enters nothing
      cases x with
      | emit event =>
          cases hv
          cases a with
          | ok u => exact h.emit event
          | error e =>
              rw [Call.landed_error, List.append_nil]
              exact h
      | issue id recipient amount =>
          cases a with
          | ok u =>
              obtain ⟨ha, rfl⟩ := Prod.mk.inj hv
              exact h.issue (Prod.ext ha rfl)
          | error e =>
              obtain ⟨ha, rfl⟩ := Prod.mk.inj hv
              obtain ⟨hissuances, hbalances⟩ := Issuance.issue_error (Prod.ext ha rfl)
              rw [Call.landed_error, List.append_nil]
              exact h.congr hissuances hbalances rfl rfl
      | forward id currency amount destination =>
          cases a with
          | ok u =>
              obtain ⟨ha, rfl⟩ := Prod.mk.inj hv
              exact h.forward (Prod.ext ha rfl)
          | error e =>
              obtain ⟨ha, rfl⟩ := Prod.mk.inj hv
              have hkept := Transfers.make_error (k := .forward) (Prod.ext ha rfl)
              rw [Call.landed_error, List.append_nil]
              exact h.congr rfl rfl (congrFun hkept .forward) (congrFun hkept .refund)
      | refund id currency amount investor =>
          cases a with
          | ok u =>
              obtain ⟨ha, rfl⟩ := Prod.mk.inj hv
              exact h.refund rfl (Prod.ext ha rfl)
          | error e =>
              obtain ⟨ha, rfl⟩ := Prod.mk.inj hv
              have hkept := Transfers.make_error (k := .refund) (Prod.ext ha rfl)
              rw [Call.landed_error, List.append_nil]
              exact h.congr rfl rfl (congrFun hkept .forward) (congrFun hkept .refund)

/-- **What is kept is what was accepted**, after every occurrence. -/
theorem step {es : List Event} {e : Event} (h : Books (effectsOf es) v) (hv : v.Sees e v') :
    Books (effectsOf (es ++ [e])) v' := by
  rw [effectsOf_append]
  cases e with
  | answer i o c a => exact h.answer hv
  | tick | begin | lock | finish =>
      cases hv
      simpa [Event.effects] using h

end Books

end Services

/-! ## a sale to run with services -/

/-- They know the buyer and the currency; the sale is still to be configured. -/
def Sample.world : World :=
  { World.start early [.emptyLog] with
    allowList := AllowList.empty.allow ⟨"alice"⟩ .nonAccredited
    rates := Directory.empty.insert (.ofText "USD") ⟨.one, .one, Sample.at 0⟩ }

/-- The sale is configured. -/
def Sample.scheduled : World := (World.run (Operation.configure config specs).program world).2

/-- It opens; the first issue of tokens will fail. -/
def Sample.opened : World :=
  { scheduled.setTime Sample.open with
    issuance := { scheduled.issuance with failures := ⟨1⟩ } }

/-- One purchase was made, the sale has ended and the purchase is not settled. -/
def Sample.unsettled (r : PurchaseRequest) : World :=
  (World.run (Operation.purchase r).program opened).2.setTime late

/-- The sale comes to that. -/
theorem Sample.run_unsettled (r : PurchaseRequest) : ∃ es,
    ServedRun Forward (.start early) .empty es (unsettled r).system (unsettled r).services := by
  obtain ⟨es₁, h₁⟩ : ∃ es, ServedRun Forward (.start early) .empty es scheduled.system
      scheduled.services := ServedRun.refl.andRun (w := world) (.configure config specs)
  have h₂ := h₁.step (.tick (show early ≤ Sample.open by decide)) rfl
  have hrigged : scheduled.services.Rigged opened.services := ⟨⟨1⟩, ⟨0⟩, ⟨0⟩, rfl⟩
  obtain ⟨es₃, h₃⟩ := ServedRun.andRun (w := opened) (h₂.rig hrigged) (.purchase r)
  have hnow : (World.run (Operation.purchase r).program opened).2.now ≤ late := by
    rw [World.now_run]
    decide
  exact ⟨_, h₃.step (.tick hnow) rfl⟩

end TokenSale
