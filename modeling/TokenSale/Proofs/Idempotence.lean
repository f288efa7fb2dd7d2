import TokenSale.Proofs.Finalizing

/-!
# TokenSale.Proofs.Idempotence

Whoever does not know whether a call has arrived makes it again.  The services
in memory can be called again, whatever they were asked before and whichever of
their calls were made to fail.

* `Calls.after`, `Calls.accepted` — a service after calls, and those of the
  calls that it accepted;
* `Issuance.Records` — what is issued is what was accepted, and what is held is
  what was issued, once for every id;
* `Issuance.Honours` — what the next call to the token ledger does;
* `Transfers.Records` — of each kind, the first transfer of a purchase that was
  accepted is the one that is kept;
* `Transfers.Honours` — what the next call to the settlement does;
* `Transfers.Alike.after` — calls of one kind do not show in the other;
* `services_idempotent` — all of it, after every sequence of calls.
-/

namespace TokenSale

/-! ## calls one after the other -/

namespace Calls

variable {σ κ : Type} (serve : σ → κ → Except CollaboratorError Unit × σ)

/-- A service after calls. -/
def after (s : σ) (calls : List κ) : σ := calls.foldl (fun s x => (serve s x).2) s

/-- Those of the calls that the service accepts. -/
def accepted (s : σ) : List κ → List κ
  | [] => []
  | x :: calls =>
    if (serve s x).1.isOk then x :: accepted (serve s x).2 calls
    else accepted (serve s x).2 calls

@[simp] theorem after_cons (s : σ) (x : κ) (calls : List κ) :
    after serve s (x :: calls) = after serve (serve s x).2 calls := rfl

variable {serve}

/-- **What every call keeps holds after all of them**, about the calls that were
accepted. -/
theorem invariant {P : List κ → σ → Prop}
    (hok : ∀ {xs s x s'}, P xs s → serve s x = (.ok (), s') → P (xs ++ [x]) s')
    (herror : ∀ {xs s x e s'}, P xs s → serve s x = (.error e, s') → P xs s')
    {xs : List κ} {s : σ} (h : P xs s) (calls : List κ) :
    P (xs ++ accepted serve s calls) (after serve s calls) := by
  induction calls generalizing xs s with
  | nil => simpa [accepted, after] using h
  | cons x calls ih =>
      rw [after_cons, accepted]
      cases hx : (serve s x).1 with
      | ok u =>
          have hnext := ih (hok h (Prod.ext hx rfl))
          rwa [List.append_assoc] at hnext
      | error e => exact ih (herror h (Prod.ext hx rfl))

end Calls

/-! ## the token ledger -/

/-- What is asked of the token ledger. -/
inductive IssueCall where
  /-- Makes that many of the next issues fail. -/
  | fail (n : Nat)
  | issue (id : Uuid) (recipient : InvestorId) (amount : Tokens)
  deriving DecidableEq

namespace Issuance

variable {l l' : Issuance} {xs : List IssueCall} {id : Uuid} {i : InvestorId} {n : Tokens}

/-- The answer to a call and the ledger after it. -/
def serve (l : Issuance) : IssueCall → Except CollaboratorError Unit × Issuance
  | .fail n => (.ok (), { l with failures := ⟨n⟩ })
  | .issue id recipient amount => l.issue id recipient amount

/-- What the ledger holds and the calls it has accepted. -/
structure Records (l : Issuance) (xs : List IssueCall) : Prop where
  /-- What is recorded under an id is what was accepted under it. -/
  issued : ∀ id recipient amount, l.issuances.get? id = some (recipient, amount) ↔
    .issue id recipient amount ∈ xs
  /-- Everybody holds what is recorded for them, each id counted once. -/
  balance : ∀ i, (l.balance i).val =
    l.issuances.sumOf fun _ p => if p.1 = i then p.2.val else 0

/-- What the next call does. -/
structure Honours (l : Issuance) (xs : List IssueCall) (id : Uuid) (i : InvestorId) (n : Tokens) :
    Prop where
  /-- It is accepted if it was not made to fail and is the call recorded under its
  id, or the first under its id with room for what it adds. -/
  accepted_iff : (∃ l', l.issue id i n = (.ok (), l')) ↔ l.failures.left = 0 ∧ l.Grants id i n
  /-- A call that is accepted is accepted again, and changes nothing then; -/
  again : ∀ l', l.issue id i n = (.ok (), l') → l'.issue id i n = (.ok (), l')
  /-- so it is later, whatever was called in between, unless it is made to fail. -/
  repeated : .issue id i n ∈ xs → l.failures.left = 0 → l.issue id i n = (.ok (), l)
  /-- Other tokens, or tokens for somebody else, are refused under the same id. -/
  conflicting : ∀ j m, .issue id j m ∈ xs → (j, m) ≠ (i, n) →
    ∃ e l', l.issue id i n = (.error e, l')
  /-- A call that is refused leaves what is recorded and what is held. -/
  refused : ∀ e l', l.issue id i n = (.error e, l') →
    l'.issuances = l.issuances ∧ l'.balances = l.balances

/-- A call that is made to fail is used up, and records nothing. -/
theorem issue_of_left_ne_zero (h : l.failures.left ≠ 0) (id : Uuid) (i : InvestorId) (n : Tokens) :
    l.issue id i n =
      (.error ⟨.tokenLedger, "injected failure"⟩, { l with failures := ⟨l.failures.left - 1⟩ }) := by
  simp [issue, Failures.take_of_left_ne_zero h]

/-- A call that is on record is accepted again and changes nothing. -/
theorem issue_of_recorded (hleft : l.failures.left = 0)
    (h : l.issuances.get? id = some (i, n)) : l.issue id i n = (.ok (), l) := by
  simp [issue, Failures.take_of_left hleft, record, h]

/-- Only a call that was not made to fail is accepted. -/
theorem left_of_issue_ok (h : l.issue id i n = (.ok (), l')) :
    l.failures.left = 0 ∧ l'.failures = l.failures := by
  refine ⟨?_, ?_⟩
  · by_contra hleft
    rw [issue_of_left_ne_zero hleft] at h
    cases h
  · obtain ⟨-, rfl⟩ | ⟨-, next, -, rfl⟩ := issue_ok h <;> rfl

/-- A call that was accepted is granted from then on. -/
theorem grants_of_issue_ok (h : l.issue id i n = (.ok (), l')) : l.Grants id i n := by
  obtain ⟨hearlier, -⟩ | ⟨hnone, next, hnext, -⟩ := issue_ok h
  · exact .inl hearlier
  · exact .inr ⟨hnone, hnext ▸ next.val_lt⟩

/-- The first call under an id adds to one balance. -/
theorem Records.issue (h : l.Records xs) (hl : l.issue id i n = (.ok (), l')) :
    l'.Records (xs ++ [.issue id i n]) where
  issued k j m := by
    rw [List.mem_append, List.mem_singleton, IssueCall.issue.injEq, ← h.issued k j m]
    exact issuances_issue_ok hl k j m
  balance j := by
    obtain ⟨-, rfl⟩ | ⟨hnone, next, hnext, rfl⟩ := issue_ok hl
    · exact h.balance j
    · have hsum := l.issuances.sumOf_insert id (i, n) fun _ p => if p.1 = j then p.2.val else 0
      have hold := h.balance j
      rw [hnone, Option.elim_none, Nat.add_zero] at hsum
      rw [balance_insert, hsum, ← hold]
      by_cases hj : j = i
      · subst hj
        rw [if_pos rfl, if_pos rfl, hnext]
      · rw [if_neg hj, if_neg (Ne.symm hj), Nat.add_zero]

/-- What is on record depends on the issuances and the balances only. -/
theorem Records.congr (h : l.Records xs) (hissuances : l'.issuances = l.issuances)
    (hbalances : l'.balances = l.balances) : l'.Records xs where
  issued := hissuances ▸ h.issued
  balance i := by
    rw [hissuances, ← h.balance i, Issuance.balance, hbalances]
    rfl

theorem records_empty : empty.Records [] :=
  ⟨fun _ _ _ => by simp [empty], fun _ => rfl⟩

/-- **What is held is what was accepted**, after all calls. -/
theorem records_after (calls : List IssueCall) :
    (Calls.after serve empty calls).Records (Calls.accepted serve empty calls) := by
  refine Calls.invariant (P := fun xs l => Records l xs) (fun {xs l x l'} h hx => ?_)
    (fun {xs l x e l'} h hx => ?_) records_empty calls
  · cases x with
    | fail n =>
        obtain ⟨-, rfl⟩ := Prod.mk.inj hx
        refine ⟨fun id i n => ?_, h.balance⟩
        rw [h.issued]
        simp
    | issue id i n => exact h.issue hx
  · cases x with
    | fail n => cases hx
    | issue id i n =>
        obtain ⟨hissuances, hbalances⟩ := issue_error hx
        exact h.congr hissuances hbalances

/-- **An id is issued once**, in every state that records what was accepted. -/
theorem Records.honours (h : l.Records xs) (id : Uuid) (i : InvestorId) (n : Tokens) :
    l.Honours xs id i n where
  accepted_iff := by
    constructor
    · rintro ⟨l', hl⟩
      exact ⟨(left_of_issue_ok hl).1, grants_of_issue_ok hl⟩
    · rintro ⟨hleft, hgrants⟩
      obtain ⟨l', hl, -⟩ := issue_of_grants hleft hgrants
      exact ⟨l', hl⟩
  again l' hl := by
    obtain ⟨hleft, hsame⟩ := left_of_issue_ok hl
    exact issue_of_recorded (hsame ▸ hleft) ((issuances_issue_ok hl id i n).2 (.inr ⟨rfl, rfl, rfl⟩))
  repeated hmem hleft := issue_of_recorded hleft ((h.issued id i n).2 hmem)
  conflicting j m hmem hne := by
    cases hl : l.issue id i n with
    | mk answer l' =>
        cases answer with
        | error e => exact ⟨e, l', rfl⟩
        | ok u =>
            have hother := (h.issued id j m).2 hmem
            obtain ⟨hearlier, -⟩ | ⟨hnone, -⟩ := issue_ok hl
            · rw [hearlier, Option.some.injEq] at hother
              exact absurd hother.symm hne
            · rw [hnone] at hother
              cases hother
  refused e l' hl := issue_error hl

end Issuance

/-! ## the settlement -/

/-- What is asked of the settlement. -/
inductive TransferCall where
  /-- Makes that many of the next calls of a kind fail. -/
  | fail (k : TransferKind) (n : Nat)
  | make (k : TransferKind) (t : Transfer)
  deriving DecidableEq

namespace TransferCall

/-- The kind that a call is about. -/
def kind : TransferCall → TransferKind
  | fail k _ => k
  | make k _ => k

/-- The transfer of a kind that a call makes. -/
def made? (k : TransferKind) : TransferCall → Option Transfer
  | fail _ _ => none
  | make k' t => if k' = k then some t else none

end TransferCall

namespace Transfers

variable {l l' : Transfers} {k : TransferKind} {xs : List TransferCall} {t : Transfer}

/-- The answer to a call and the settlement after it. -/
def serve (l : Transfers) : TransferCall → Except CollaboratorError Unit × Transfers
  | .fail k n => (.ok (), l.withKind k (l.kept k) ⟨n⟩)
  | .make k t => l.make k t

/-! ### one call -/

/-- A transfer under an identity that is kept is accepted and changes nothing. -/
theorem make_of_kept {held : Transfer} (h : (l.kept k).get? t.purchaseId = some held)
    (hleft : (l.failures k).left = 0) : l.make k t = (.ok (), l) := by
  have hsame : keepFirst (l.kept k) t = l.kept k := by simp [keepFirst, Directory.contains, h]
  rw [make_of_left hleft, hsame, withKind_self]

/-- What the next call does. -/
structure Honours (l : Transfers) (k : TransferKind) (t : Transfer) : Prop where
  /-- It is accepted if it was not made to fail. -/
  accepted_iff : (∃ l', l.make k t = (.ok (), l')) ↔ (l.failures k).left = 0
  /-- A call that is accepted is accepted again, and changes nothing then; -/
  again : ∀ l', l.make k t = (.ok (), l') → l'.make k t = (.ok (), l')
  /-- neither does any other call for a purchase of which a transfer is kept. -/
  repeated : ∀ held, (l.kept k).get? t.purchaseId = some held → (l.failures k).left = 0 →
    l.make k t = (.ok (), l)
  /-- A call that is refused leaves all transfers. -/
  refused : ∀ e l', l.make k t = (.error e, l') → l'.kept = l.kept
  /-- Whatever becomes of it, the other kind stays as it was. -/
  others : ∀ k', k' ≠ k → (l.make k t).2.kept k' = l.kept k' ∧
    (l.make k t).2.failures k' = l.failures k'

/-- A call on a ledger of transfers is accepted exactly if no failure was set. -/
theorem honours (l : Transfers) (k : TransferKind) (t : Transfer) : l.Honours k t where
  accepted_iff := ⟨fun ⟨_, hl⟩ => (make_ok hl).1, fun hleft => ⟨_, make_of_left hleft t⟩⟩
  again l' hl := by
    obtain ⟨hleft, rfl⟩ := make_ok hl
    have hheld := get?_keepFirst (l.kept k) t t.purchaseId
    rw [if_pos rfl] at hheld
    exact make_of_kept (by simpa using hheld) (by simpa using hleft)
  repeated _ hheld hleft := make_of_kept hheld hleft
  refused e l' hl := make_error hl
  others k' hk := by
    by_cases hleft : (l.failures k).left = 0
    · rw [make_of_left hleft]
      simp [hk]
    · rw [make_of_left_ne_zero hleft]
      simp [hk]

/-! ### all calls -/

/-- Of each kind, what is kept of a purchase is its first transfer. -/
def Records (l : Transfers) (xs : List TransferCall) : Prop :=
  ∀ k id, (l.kept k).get? id =
    (xs.filterMap (TransferCall.made? k)).find? fun t => t.purchaseId = id

/-- An accepted transfer joins what is on record. -/
theorem Records.make (h : l.Records xs) (hl : l.make k t = (.ok (), l')) :
    l'.Records (xs ++ [.make k t]) := by
  obtain ⟨-, rfl⟩ := make_ok hl
  intro k' id
  rw [kept_withKind, List.filterMap_append, List.find?_append, ← h k' id]
  by_cases hk : k' = k
  · subst hk
    rw [if_pos rfl, get?_keepFirst]
    by_cases hid : id = t.purchaseId
    · subst hid
      cases (l.kept k').get? t.purchaseId <;> simp [TransferCall.made?]
    · simp [TransferCall.made?, hid, Ne.symm hid]
  · simp [TransferCall.made?, hk, Ne.symm hk]

theorem records_empty : empty.Records [] := fun k _ => by cases k <;> rfl

/-- **Of each kind, the first transfer of a purchase is kept**, after all calls. -/
theorem records_after (calls : List TransferCall) :
    (Calls.after serve empty calls).Records (Calls.accepted serve empty calls) := by
  refine Calls.invariant (P := fun xs l => Records l xs) (fun {xs l x l'} h hx => ?_)
    (fun {xs l x e l'} h hx => ?_) records_empty calls
  · cases x with
    | fail k n =>
        obtain ⟨-, rfl⟩ := Prod.mk.inj hx
        intro k' id
        rw [kept_withKind_kept, h k' id]
        simp [TransferCall.made?]
    | make k t => exact h.make hx
  · cases x with
    | fail k n => cases hx
    | make k t =>
        intro k' id
        rw [make_error (show l.make k t = (.error e, l') from hx)]
        exact h k' id

/-- Two states of the settlement that agree about a kind. -/
structure Alike (k : TransferKind) (l l' : Transfers) : Prop where
  kept : l.kept k = l'.kept k
  failures : l.failures k = l'.failures k

/-- A call of another kind does not show. -/
theorem Alike.other (h : Alike k l l') {x : TransferCall} (hx : x.kind ≠ k) :
    Alike k (l.serve x).2 l' := by
  cases x with
  | fail k' n =>
      have hne : k ≠ k' := Ne.symm hx
      exact ⟨by simp [serve, hne, h.kept], by simp [serve, hne, h.failures]⟩
  | make k' t =>
      obtain ⟨hkept, hfailures⟩ := (honours l k' t).others k (Ne.symm hx)
      exact ⟨hkept.trans h.kept, hfailures.trans h.failures⟩

/-- A call of the kind is answered in the same way. -/
theorem Alike.same (h : Alike k l l') {x : TransferCall} (hx : x.kind = k) :
    (l.serve x).1 = (l'.serve x).1 ∧ Alike k (l.serve x).2 (l'.serve x).2 := by
  cases x with
  | fail k' n =>
      obtain rfl : k' = k := hx
      exact ⟨rfl, by simp [serve, h.kept], by simp [serve]⟩
  | make k' t =>
      obtain rfl : k' = k := hx
      by_cases hleft : (l.failures k').left = 0
      · rw [serve, serve, make_of_left hleft, make_of_left (h.failures ▸ hleft)]
        exact ⟨rfl, by simp [h.kept], by simp [h.failures]⟩
      · rw [serve, serve, make_of_left_ne_zero hleft, make_of_left_ne_zero (h.failures ▸ hleft)]
        exact ⟨rfl, by simp [h.kept], by simp [h.failures]⟩

/-- **Calls of one kind do not show in the other**, neither in what is kept nor in
what is accepted. -/
theorem Alike.after (h : Alike k l l') (calls : List TransferCall) :
    Alike k (Calls.after serve l calls) (Calls.after serve l' (calls.filter (·.kind = k))) ∧
      (Calls.accepted serve l calls).filter (·.kind = k) =
        Calls.accepted serve l' (calls.filter (·.kind = k)) := by
  induction calls generalizing l l' with
  | nil => exact ⟨h, rfl⟩
  | cons x calls ih =>
      by_cases hx : x.kind = k
      · obtain ⟨hanswer, hnext⟩ := h.same hx
        obtain ⟨halike, haccepted⟩ := ih hnext
        simp only [List.filter_cons, hx, decide_true, if_true, Calls.after_cons, Calls.accepted,
          hanswer]
        refine ⟨halike, ?_⟩
        split <;> simp [hx, haccepted]
      · obtain ⟨halike, haccepted⟩ := ih (h.other hx)
        simp only [List.filter_cons, hx, decide_false, Bool.false_eq_true, if_false,
          Calls.after_cons, Calls.accepted]
        refine ⟨halike, ?_⟩
        split <;> simp [hx, haccepted]

end Transfers

/-! ## both services -/

/-- **The services in memory can be called again.**  After any calls, also such as
were made to fail, the token ledger records the issues that it accepted, once for
every id, and everybody holds what is recorded for them; of each kind, the
settlement keeps the first transfer of a purchase that it accepted.  What is called
again changes nothing, another issue under the same id is refused, what is refused
changes nothing, and the two kinds of transfers do not affect each other. -/
theorem services_idempotent :
    (∀ calls : List IssueCall,
      (Calls.after Issuance.serve .empty calls).Records
        (Calls.accepted Issuance.serve .empty calls) ∧
      ∀ id i n, (Calls.after Issuance.serve .empty calls).Honours
        (Calls.accepted Issuance.serve .empty calls) id i n) ∧
    ∀ calls : List TransferCall,
      (Calls.after Transfers.serve .empty calls).Records
        (Calls.accepted Transfers.serve .empty calls) ∧
      (∀ k t, (Calls.after Transfers.serve .empty calls).Honours k t) ∧
      ∀ k, Transfers.Alike k (Calls.after Transfers.serve .empty calls)
          (Calls.after Transfers.serve .empty (calls.filter (·.kind = k))) ∧
        (Calls.accepted Transfers.serve .empty calls).filter (·.kind = k) =
          Calls.accepted Transfers.serve .empty (calls.filter (·.kind = k)) := by
  refine ⟨fun calls => ?_, fun calls => ⟨Transfers.records_after calls, Transfers.honours _,
    fun k => Transfers.Alike.after ⟨rfl, rfl⟩ calls⟩⟩
  have hrecords := Issuance.records_after calls
  exact ⟨hrecords, hrecords.honours⟩

/-- Tokens for alice under one id, called again in vain and with success, for
somebody else, and with other tokens. -/
def Sample.issueCalls : List IssueCall :=
  [.issue config.saleId ⟨"alice"⟩ ⟨33, by decide⟩,
    .fail 1,
    .issue config.saleId ⟨"alice"⟩ ⟨33, by decide⟩,
    .issue config.saleId ⟨"alice"⟩ ⟨33, by decide⟩,
    .issue config.saleId ⟨"bob"⟩ ⟨33, by decide⟩,
    .issue config.saleId ⟨"alice"⟩ ⟨34, by decide⟩]

/-- A payment, or part of one that goes back. -/
def Sample.transfer (amount : Funds) : Transfer :=
  ⟨config.saleId, .ofText "USD", amount, "vault"⟩

/-- A payment that is passed on, then another one under its identity; a refund
under the same identity, called again after it was refused. -/
def Sample.transferCalls : List TransferCall :=
  [.make .forward (transfer ⟨33, by decide⟩),
    .fail .refund 1,
    .make .forward (transfer ⟨34, by decide⟩),
    .make .refund (transfer ⟨34, by decide⟩),
    .make .refund (transfer ⟨34, by decide⟩)]

/-- Tokens were issued once, and are not issued to anybody else; the payment that
came first was passed on, and the refund was made apart from it. -/
theorem services_idempotent_called_again :
    (((Calls.after Issuance.serve .empty Sample.issueCalls).balance ⟨"alice"⟩).val = 33 ∧
      (Calls.after Issuance.serve .empty Sample.issueCalls).issue Sample.config.saleId ⟨"alice"⟩
        ⟨33, by decide⟩ = (.ok (), Calls.after Issuance.serve .empty Sample.issueCalls) ∧
      ∃ e l', (Calls.after Issuance.serve .empty Sample.issueCalls).issue Sample.config.saleId
        ⟨"bob"⟩ ⟨33, by decide⟩ = (.error e, l')) ∧
    ((Calls.after Transfers.serve .empty Sample.transferCalls).kept .forward).get?
        Sample.config.saleId = some (Sample.transfer ⟨33, by decide⟩) ∧
      (Calls.after Transfers.serve .empty Sample.transferCalls).make .forward
        (Sample.transfer ⟨34, by decide⟩) =
          (.ok (), Calls.after Transfers.serve .empty Sample.transferCalls) ∧
      (Calls.after Transfers.serve .empty Sample.transferCalls).kept .refund =
        (Calls.after Transfers.serve .empty
          (Sample.transferCalls.filter (·.kind = .refund))).kept .refund := by
  obtain ⟨hrecords, hhonours⟩ := services_idempotent.1 Sample.issueCalls
  have hissued : IssueCall.issue Sample.config.saleId ⟨"alice"⟩ ⟨33, by decide⟩ ∈
      Calls.accepted Issuance.serve .empty Sample.issueCalls := by decide +kernel
  obtain ⟨-, hmade, happart⟩ := services_idempotent.2 Sample.transferCalls
  have hheld : ((Calls.after Transfers.serve .empty Sample.transferCalls).kept .forward).get?
      Sample.config.saleId = some (Sample.transfer ⟨33, by decide⟩) := by decide +kernel
  exact ⟨⟨hrecords.balance ⟨"alice"⟩, (hhonours _ _ _).repeated hissued rfl,
    (hhonours _ _ _).conflicting _ _ hissued (by decide)⟩, hheld,
    (hmade .forward _).repeated _ hheld rfl, (happart .refund).1.kept⟩

end TokenSale
