import TokenSale.Proofs.DerivedIds
import TokenSale.Proofs.Finalizing
import TokenSale.Proofs.Warrant

/-!
# TokenSale.Proofs.PurchaseIds

No identity is used for two purchases, whoever chooses it and whoever runs
operations at the same time.

* `Run.functional` — what happens determines a run;
* `Files` — a step files a purchase under an identity that is not on record;
  `Files.ne` — two steps never do so under the same one;
* `Run.filed_of_receipt` — every receipt goes back to such a step of its call;
* `Program.Checks` — what is left of a purchase until its rate is quoted;
  `Run.refusedAsDuplicate` — what becomes of it then if its identity is taken;
* `purchase_ids_commit_once` — all of it, with the search for a derived identity.
-/

namespace TokenSale

variable {clock : Instant → Instant → Prop} {t : Instant} {s s' s'' : System} {e : Event}
  {es es' : List Event} {i j : Nat} {r r' : PurchaseRequest} {id id' : Uuid}

/-! ## what happens determines a run -/

theorem Step.functional (h : Step clock s e s') (h' : Step clock s e s'') : s' = s'' := by
  cases h with
  | tick => cases h'; rfl
  | begin => cases h'; rfl
  | finish => cases h'; rfl
  | lock hi =>
      cases h' with
      | lock hi' =>
          rw [hi, Option.some.injEq, Session.mk.injEq] at hi'
          obtain ⟨rfl, hi'⟩ := hi'
          cases eq_of_heq hi'
          rfl
  | answer a hi =>
      cases h' with
      | answer _ hi' =>
          rw [hi, Option.some.injEq, Session.mk.injEq] at hi'
          cases eq_of_heq hi'.2
          rfl

/-- **The events of a run determine where it leads.** -/
theorem Run.functional (h : Run clock s es s') (h' : Run clock s es s'') : s' = s'' := by
  induction es using List.reverseRecOn generalizing s' s'' with
  | nil => exact h.eq_of_nil.trans h'.eq_of_nil.symm
  | append_singleton es e ih =>
      obtain ⟨s₁, h₁, hs⟩ := h.last
      obtain ⟨s₂, h₂, hs'⟩ := h'.last
      rw [ih h₁ h₂] at hs
      exact hs.functional hs'

/-- What a caller is running stays the same as long as it takes no step. -/
theorem Run.session_kept (h : Run clock s es s') (hes : ∀ e ∈ es, e.caller? ≠ some i)
    (o : Operation) (p : Program o.Result) (hi : s.sessions i = some ⟨o, p⟩) :
    s'.sessions i = some ⟨o, p⟩ := by
  induction h with
  | refl => exact hi
  | @step es s' s'' e h hs ih =>
      have hsession := ih fun e he => hes e (List.mem_append_left _ he)
      have hcaller : e.caller? ≠ some i := hes e (by simp)
      have hfinish : e.isFinishOf i = false := by
        cases e with
        | finish j o result => exact beq_false_of_ne fun hij => hcaller (congrArg some hij.symm)
        | _ => rfl
      obtain ⟨-, hkept⟩ | ⟨f, k, rfl, -⟩ | ⟨c, k, a, rfl, -⟩ := hs.session_cases hsession hfinish
      · exact hkept
      · exact absurd rfl hcaller
      · exact absurd rfl hcaller

/-! ## purchases that are filed -/

/-- The step of a caller that comes after these occurrences commits a purchase
under an identity that no purchase on record has. -/
def Files (clock : Instant → Instant → Prop) (t : Instant) (es : List Event) (i : Nat)
    (r : PurchaseRequest) (id : Uuid) : Prop :=
  ∃ s s' checked record, Run clock (.start t) es s ∧ Step clock s (.lock i) s' ∧
    s.book.purchases.contains id = false ∧
    s.book.commitPurchase r checked s.now = .ok (record, s'.book) ∧ record.purchaseId = id

/-- What is filed stays on record. -/
theorem Files.onRecord (hf : Files clock t es i r id)
    (h : Run clock (.start t) (es ++ .lock i :: es') s) : s.book.purchases.contains id = true := by
  obtain ⟨s₁, s₂, checked, record, h₁, hs, -, hcommit, rfl⟩ := hf
  obtain ⟨s₁', h₁', h₂'⟩ := h.split
  obtain rfl := h₁.functional h₁'
  obtain ⟨s₂', hs', hrest⟩ := h₂'.uncons
  obtain rfl := hs.functional hs'
  obtain ⟨x, hx, -⟩ := (Book.holds_of_commitPurchase hcommit).1.filed
  obtain ⟨y, hy, -⟩ := (h₁.step hs).get?_filed hrest hx
  rw [Directory.contains, hy]
  rfl

/-- Two steps never file under the same identity. -/
theorem Files.ne (hf : Files clock t es i r id)
    (hf' : Files clock t (es ++ .lock i :: es') j r' id') : id ≠ id' := by
  rintro rfl
  obtain ⟨s, -, -, -, h, -, hfree, -⟩ := hf'
  rw [hf.onRecord h] at hfree
  contradiction

/-- A committed purchase was filed by one of its steps under the lock. -/
theorem files_of_committed {record : PurchaseRecord} (h : Run clock (.start t) es s)
    (hc : Committed clock r record i s es' s') : ∃ es₁ es₂, es' = es₁ ++ .lock i :: es₂ ∧
      Files clock t (es ++ es₁) i r record.purchaseId := by
  obtain ⟨es₁, es₂, s₁, s₂, checked, rfl, hbefore, hs, hcommit, -, -⟩ := hc.own
  refine ⟨es₁, es₂, rfl, s₁, s₂, checked, record, h.append hbefore.run, hs, ?_, hcommit, rfl⟩
  rw [Directory.contains, (Book.purchases_of_commitPurchase hcommit).1]
  rfl

/-- The course of a purchase that is about to end. -/
theorem Run.course_of_done {result : Except SaleError PurchaseReceipt}
    (h : Run clock (.start t) es s) (hi : s.sessions i = some ⟨.purchase r, .done result⟩) :
    ∃ before during s₀, es = before ++ .begin i (.purchase r) :: during ∧
      (∀ e ∈ during, e.isFinishOf i = false) ∧ Run clock (.start t) before s₀ ∧
      Run clock s₀ (.begin i (.purchase r) :: during) s ∧
      ((Untouched clock i s₀ (.begin i (.purchase r) :: during) s ∧ ∃ e, result = .error e) ∨
        ∃ record, Committed clock r record i s₀ (.begin i (.purchase r) :: during) s ∧
          record.Confirms result) := by
  obtain ⟨before, during, s₁, rfl, hduring, hbefore, -, hrun⟩ := h.session_begun hi
  obtain ⟨s₀, h₀, hbegin⟩ := hbefore.last
  have hcall : Run clock s₀ (.begin i (.purchase r) :: during) s := hrun.cons hbegin
  refine ⟨before, during, s₀, rfl, hduring, h₀, hcall, ?_⟩
  obtain ⟨p, hp, ⟨huntouched, hnone⟩ | ⟨record, hcommitted, hconfirms, -⟩⟩ :=
    purchase_all_or_nothing h₀ hcall hduring
  · rw [hi, Option.some.injEq, Session.mk.injEq, heq_eq_eq] at hp
    obtain ⟨-, rfl⟩ := hp
    cases result with
    | error e => exact .inl ⟨huntouched, e, rfl⟩
    | ok receipt => exact absurd rfl (hnone receipt)
  · rw [hi, Option.some.injEq, Session.mk.injEq, heq_eq_eq] at hp
    exact .inr ⟨record, hcommitted, hconfirms _ hp.2.symm⟩

/-- Every receipt is for a purchase that was filed in the same call. -/
theorem Run.filed_of_receipt {receipt : PurchaseReceipt}
    (h : Run clock (.start t) (es ++ .finish i (.purchase r) (.ok receipt) :: es') s) :
    ∃ before during, es = before ++ .lock i :: during ∧ (∀ e ∈ during, e.isFinishOf i = false) ∧
      Files clock t before i r receipt.purchaseId := by
  obtain ⟨s₁, h₁, h₂⟩ := h.split
  obtain ⟨s₂, hs, -⟩ := h₂.uncons
  cases hs with
  | finish hi =>
      obtain ⟨before, during, s₀, rfl, hduring, h₀, -, hcourse⟩ := h₁.course_of_done hi
      obtain ⟨-, e, he⟩ | ⟨record, hcommitted, hconfirms⟩ := hcourse
      · contradiction
      obtain ⟨status, hstatus⟩ := hconfirms
      cases hstatus
      obtain ⟨es₁, es₂, hsplit, hfiles⟩ := files_of_committed h₀ hcommitted
      refine ⟨before ++ es₁, es₂, by rw [hsplit, List.append_assoc], fun e he => ?_, hfiles⟩
      have hmem : e ∈ .begin i (.purchase r) :: during := by simp [hsplit, he]
      obtain rfl | hmem := List.mem_cons.1 hmem
      · rfl
      · exact hduring e hmem

/-- Of two places in a list one comes first, or they are the same. -/
theorem append_cons_cases {α : Type} {a b c d : List α} {x y : α} (h : a ++ x :: b = c ++ y :: d) :
    (∃ z, c = a ++ x :: z) ∨ (∃ z, a = c ++ y :: z) ∨ a = c ∧ x = y ∧ b = d := by
  obtain ⟨z, rfl, hz⟩ | ⟨z, rfl, hz⟩ := List.append_eq_append_iff.1 h
  · cases z with
    | nil => exact .inr (.inr ⟨by simp, by simpa using hz⟩)
    | cons w z =>
        obtain ⟨rfl, -⟩ := List.cons.inj hz
        exact .inl ⟨z, rfl⟩
  · cases z with
    | nil => exact .inr (.inr ⟨by simp, by simpa [eq_comm] using hz⟩)
    | cons w z =>
        obtain ⟨rfl, -⟩ := List.cons.inj hz
        exact .inr (.inl ⟨z, rfl⟩)

/-- Two receipts are never for the same purchase. -/
theorem Run.receipts_ne {before between later : List Event} {a b : PurchaseReceipt}
    (h : Run clock (.start t) (before ++ .finish i (.purchase r) (.ok a) ::
      (between ++ .finish j (.purchase r') (.ok b) :: later)) s) :
    a.purchaseId ≠ b.purchaseId := by
  obtain ⟨es₁, es₂, rfl, -, hfiles⟩ := h.filed_of_receipt
  rw [← List.cons_append, ← List.append_assoc] at h
  obtain ⟨es₁', es₂', hsplit, hduring, hfiles'⟩ := h.filed_of_receipt
  rw [List.append_assoc] at hsplit
  obtain ⟨z, rfl⟩ | ⟨z, rfl⟩ | ⟨-, hij, rfl⟩ := append_cons_cases hsplit
  · exact hfiles.ne hfiles'
  · exact (hfiles'.ne hfiles).symm
  · -- one step cannot file for both, since the first call has ended by then
    obtain rfl : i = j := by simpa using hij
    simpa [Event.isFinishOf] using hduring (.finish i (.purchase r) (.ok a)) (by simp)

/-- The identity on the receipt that a purchase ends with here. -/
def Event.receiptId? : Event → Option Uuid
  | finish _ (.purchase _) (.ok receipt) => some receipt.purchaseId
  | _ => none

/-- A receipt is only given to a caller that purchases. -/
theorem receiptId?_eq_some (h : e.receiptId? = some id) : ∃ i r receipt,
    e = .finish i (.purchase r) (.ok receipt) ∧ receipt.purchaseId = id := by
  unfold Event.receiptId? at h
  split at h
  next i r receipt => exact ⟨i, r, receipt, rfl, Option.some.inj h⟩
  · contradiction

/-- All receipts together. -/
theorem Run.nodup_receipts (h : Run clock (.start t) es s) :
    (es.filterMap Event.receiptId?).Nodup := by
  induction h with
  | refl => simp
  | @step es s' s'' e h hs ih =>
      rw [List.filterMap_append]
      cases hid : e.receiptId? with
      | none => simpa [List.filterMap_cons, hid] using ih
      | some id =>
          simp only [List.filterMap_cons, hid, List.filterMap_nil]
          refine List.nodup_append.2 ⟨ih, by simp, fun a ha b hb => ?_⟩
          obtain rfl := List.mem_singleton.1 hb
          obtain ⟨e', he', ha⟩ := List.mem_filterMap.1 ha
          obtain ⟨i, r, x, rfl, rfl⟩ := receiptId?_eq_some ha
          obtain ⟨j, r', y, rfl, rfl⟩ := receiptId?_eq_some hid
          obtain ⟨before, between, rfl⟩ := List.append_of_mem he'
          have hrun := h.step hs
          rw [List.append_assoc, List.cons_append] at hrun
          exact hrun.receipts_ne

/-! ## purchases whose identity is taken -/

/-- What is left of a purchase once everything outside the lock was checked. -/
def Sale.fileChecked (r : PurchaseRequest) (checked : Book.Checked) :
    Program (Except SaleError PurchaseReceipt) := do
  match ← Program.attempt fun b now => b.commitPurchase r checked now with
  | .error e => pure (.error e)
  | .ok record =>
    match ← settle record.purchaseId with
    | .error e => pure (.error e)
    | .ok settlement => pure (.ok ⟨record.purchaseId, record.plan, settlement⟩)

namespace Program

/-- What is left of a purchase until its rate, the last thing to be checked, is
quoted: it only looks, and ends with an error if it ends. -/
def Checks (r : PurchaseRequest) : Program (Except SaleError PurchaseReceipt) → Prop
  | done result => ∃ e, result = .error e
  | locked f k => ∀ b now, f b now = b ∧ Checks r (k b now)
  | call (.compliance _) k => ∀ a, Checks r (k a)
  | call (.rate _) k => (∀ e, Checks r (k (.error e))) ∧
      ∀ rate, ∃ investorClass, k (.ok rate) = Sale.fileChecked r ⟨investorClass, rate⟩
  | call (.effect _) _ => False

/-- A purchase is checked before it is filed. -/
theorem checks_purchase (r : PurchaseRequest) : (Sale.purchase r).Checks r := by
  unfold Sale.purchase Sale.check
  split
  · exact ⟨_, rfl⟩
  intro b now
  refine ⟨rfl, ?_⟩
  simp only
  cases Sale.precheck b.config? r with
  | error e => exact ⟨e, rfl⟩
  | ok u =>
      intro verdict
      cases verdict with
      | error e => exact ⟨_, rfl⟩
      | ok verdict =>
          change Checks r ((if _ then _ else _) >>= _)
          split
          · exact ⟨_, rfl⟩
          · refine ⟨fun e => ?_, fun rate => ?_⟩
            · exact ⟨_, rfl⟩
            · exact ⟨verdict.investorClass, rfl⟩

/-- Once checked, a purchase asks the outside for nothing but effects. -/
theorem callsEffects_fileChecked (r : PurchaseRequest) (checked : Book.Checked) :
    (Sale.fileChecked r checked).CallsEffects := by
  refine (callsEffects_atomically _).bind fun committed => ?_
  cases committed with
  | error e => trivial
  | ok record =>
      refine (callsEffects_settle _).bind fun status => ?_
      cases status <;> trivial

end Program

/-- A purchase under way is still being checked, or calls for effects only. -/
theorem Run.checking (h : Run clock s es s')
    (hi : s.sessions i = some ⟨.purchase r, Sale.purchase r⟩)
    (hes : ∀ e ∈ es, e.isFinishOf i = false) :
    ∃ p : Program (Except SaleError PurchaseReceipt),
      s'.sessions i = some ⟨.purchase r, p⟩ ∧ (p.Checks r ∨ p.CallsEffects) := by
  induction h with
  | refl => exact ⟨_, hi, .inl (Program.checks_purchase r)⟩
  | @step es s' s'' e h hs ih =>
      obtain ⟨p, hp, hstage⟩ := ih fun e he => hes e (List.mem_append_left _ he)
      obtain ⟨-, hp'⟩ | ⟨f, k, rfl, rfl, -, hp'⟩ | ⟨c, k, a, rfl, rfl, -, hp'⟩ :=
        hs.session_cases hp (hes e (by simp))
      · exact ⟨p, hp', hstage⟩
      · exact ⟨_, hp', hstage.imp (fun hk => (hk _ _).2) fun hk => hk _ _⟩
      · refine ⟨_, hp', ?_⟩
        obtain hk | hk := hstage
        · cases c with
          | compliance investor => exact .inl (hk a)
          | rate currency =>
              cases a with
              | error e => exact .inl (hk.1 e)
              | ok rate =>
                  obtain ⟨investorClass, hnext⟩ := hk.2 rate
                  exact .inr (hnext ▸ Program.callsEffects_fileChecked r _)
          | effect x => exact hk.elim
        · exact .inr (hk.2 a)

/-- A purchase whose rate was quoted is about to be filed. -/
theorem Run.checked {currency : Currency} {rate : Rate} (h : Run clock s es s')
    (hi : s.sessions i = some ⟨.purchase r, Sale.purchase r⟩)
    (hes : ∀ e ∈ es, e.isFinishOf i = false)
    (hs : Step clock s' (.answer i (.purchase r) (.rate currency) (.ok rate)) s'') :
    ∃ investorClass,
      s''.sessions i = some ⟨.purchase r, Sale.fileChecked r ⟨investorClass, rate⟩⟩ := by
  obtain ⟨p, hp, hstage⟩ := h.checking hi hes
  cases hs with
  | @answer _ _ _ k _ hcall =>
      rw [hp, Option.some.injEq, Session.mk.injEq, heq_eq_eq] at hcall
      obtain ⟨-, rfl⟩ := hcall
      obtain hk | ⟨⟨x, hx⟩, -⟩ := hstage
      · obtain ⟨investorClass, hnext⟩ := hk.2 rate
        exact ⟨investorClass, by simp [System.withSession, hnext]⟩
      · contradiction

/-- The only step that a caller can take is refused under the lock: its purchase
ends as a duplicate, and the book stays as it is. -/
structure RefusedAsDuplicate (clock : Instant → Instant → Prop) (s : System) (i : Nat)
    (r : PurchaseRequest) (id : Uuid) : Prop where
  possible : ∃ s', Step clock s (.lock i) s'
  only : ∀ e s', Step clock s e s' → e.caller? = some i → e = .lock i ∧ s'.book = s.book ∧
    s'.sessions i = some ⟨.purchase r, .done (.error (.duplicatePurchase id))⟩

/-- Filing is one step under the lock, which a refusal makes the last one. -/
theorem Sale.fileChecked_eq (r : PurchaseRequest) (checked : Book.Checked) :
    ∃ f k, Sale.fileChecked r checked = .locked f k ∧ ∀ b now e,
      b.commitPurchase r checked now = .error e → f b now = b ∧ k b now = .done (.error e) := by
  refine ⟨_, _, rfl, fun b now e h => ?_⟩
  simp only [h, true_and]
  rfl

/-- A checked request under an identity on record can only be refused as a
duplicate. -/
theorem refusedAsDuplicate {checked : Book.Checked}
    (hi : s.sessions i = some ⟨.purchase r, Sale.fileChecked r checked⟩)
    (hr : r.purchaseId = some id) (hid : s.book.purchases.contains id = true) :
    RefusedAsDuplicate clock s i r id := by
  obtain ⟨f, k, hfile, hrefused⟩ := Sale.fileChecked_eq r checked
  obtain ⟨hkeep, hdone⟩ := hrefused s.book s.now _ (Book.commitPurchase_duplicate hr hid)
  rw [hfile] at hi
  refine ⟨⟨_, .lock hi⟩, fun e s' hs he => ?_⟩
  have hfinish : e.isFinishOf i = false := by
    cases hs with
    | @finish j o result hj =>
        obtain rfl : j = i := by simpa [Event.caller?] using he
        rw [hi, Option.some.injEq, Session.mk.injEq] at hj
        obtain ⟨rfl, hj⟩ := hj
        cases eq_of_heq hj
    | _ => rfl
  obtain ⟨hother, -⟩ | ⟨f', k', rfl, hp, hbook, hsession⟩ | ⟨c, k', a, -, hp, -⟩ :=
    hs.session_cases hi hfinish
  · exact absurd he hother
  · cases hp
    exact ⟨rfl, hbook.trans hkeep, hdone ▸ hsession⟩
  · cases hp

/-- A caller that has passed the checks and finds its identity taken is refused. -/
theorem Run.refusedAsDuplicate {before during rest : List Event} {currency : Currency} {rate : Rate}
    (h : Run clock (.start t) (before ++ .begin i (.purchase r) ::
      (during ++ .answer i (.purchase r) (.rate currency) (.ok rate) :: rest)) s)
    (hduring : ∀ e ∈ during, e.isFinishOf i = false) (hrest : ∀ e ∈ rest, e.caller? ≠ some i)
    (hr : r.purchaseId = some id) (hid : s.book.purchases.contains id = true) :
    RefusedAsDuplicate clock s i r id := by
  obtain ⟨s₀, -, h₁⟩ := h.split
  obtain ⟨s₁, hbegin, h₂⟩ := h₁.uncons
  obtain ⟨s₂, h₃, h₄⟩ := h₂.split
  obtain ⟨s₃, hquote, h₅⟩ := h₄.uncons
  have hbegun : s₁.sessions i = some ⟨.purchase r, Sale.purchase r⟩ := by
    cases hbegin with
    | begin o hidle => simp [System.withSession, Operation.program]
  obtain ⟨investorClass, hchecked⟩ := h₃.checked hbegun hduring hquote
  exact TokenSale.refusedAsDuplicate (h₅.session_kept hrest _ _ hchecked) hr hid

/-- A call that ends with an error has left no trace. -/
theorem Run.untouched_of_error {before during : List Event} {e : SaleError}
    (h : Run clock (.start t)
      (before ++ .begin i (.purchase r) :: (during ++ .finish i (.purchase r) (.error e) :: es)) s)
    (hduring : ∀ e ∈ during, e.isFinishOf i = false) :
    ∃ s₀ s₁, Run clock (.start t) before s₀ ∧
      Run clock s₀ (.begin i (.purchase r) :: during) s₁ ∧
      Untouched clock i s₀ (.begin i (.purchase r) :: during) s₁ := by
  obtain ⟨s₀, h₀, h₁⟩ := h.split
  rw [← List.cons_append] at h₁
  obtain ⟨s₁, hcall, h₂⟩ := h₁.split
  refine ⟨s₀, s₁, h₀, hcall, ?_⟩
  obtain ⟨s₂, hs, -⟩ := h₂.uncons
  cases hs with
  | finish hi =>
      obtain ⟨p, hp, ⟨huntouched, -⟩ | ⟨record, -, hconfirms, -⟩⟩ :=
        purchase_all_or_nothing h₀ hcall hduring
      · exact huntouched
      · rw [hi, Option.some.injEq, Session.mk.injEq, heq_eq_eq] at hp
        obtain ⟨status, hstatus⟩ := hconfirms _ hp.2.symm
        contradiction

/-! ## all together -/

/-- **No identity is used twice.**  In every run, among any callers and whatever
services answer: no two receipts have the same identity; each goes back to a
step of its call that filed the purchase under an identity not on record then,
and no two steps file under the same one; a caller that has passed the checks with
an identity that is on record can only be refused as a duplicate, and the book
stays as it is; a call that ends with an error has changed nothing, neither the
purchases nor the number from which identities are sought, and one is refused
as a duplicate only if its identity is on record; and without an identity the
search finds the first derived one that is free, unless two of the numbers it
may try share an identity. -/
theorem purchase_ids_commit_once (h : Run clock (.start t) es s) :
    (es.filterMap Event.receiptId?).Nodup ∧
    (∀ before i r receipt later,
      es = before ++ .finish i (.purchase r) (.ok receipt) :: later →
      ∃ es₁ es₂, before = es₁ ++ .lock i :: es₂ ∧ (∀ e ∈ es₂, e.isFinishOf i = false) ∧
        Files clock t es₁ i r receipt.purchaseId) ∧
    (∀ es₁ i r id es₂ j r' id', Files clock t es₁ i r id →
      Files clock t (es₁ ++ .lock i :: es₂) j r' id' → id ≠ id') ∧
    (∀ before i r during currency rate rest id,
      es = before ++ .begin i (.purchase r) ::
        (during ++ .answer i (.purchase r) (.rate currency) (.ok rate) :: rest) →
      (∀ e ∈ during, e.isFinishOf i = false) → (∀ e ∈ rest, e.caller? ≠ some i) →
      r.purchaseId = some id → s.book.purchases.contains id = true →
      RefusedAsDuplicate clock s i r id) ∧
    (∀ before i r during e later,
      es = before ++ .begin i (.purchase r) ::
        (during ++ .finish i (.purchase r) (.error e) :: later) →
      (∀ e ∈ during, e.isFinishOf i = false) →
      ∃ s₀ s₁, Run clock (.start t) before s₀ ∧
        Run clock s₀ (.begin i (.purchase r) :: during) s₁ ∧
        Untouched clock i s₀ (.begin i (.purchase r) :: during) s₁) ∧
    (∀ r id checked, r.purchaseId = some id →
      (s.book.commitPurchase r checked s.now = .error (.duplicatePurchase id) ↔
        s.book.purchases.contains id = true)) ∧
    ∀ r terms, r.purchaseId = none → s.book.terms = some terms →
      Set.InjOn (Book.derivedId terms.config.saleId) s.book.candidates →
      ∃ k, Book.FirstFree terms.config.saleId s.book.purchases.contains s.book.nextSeq k ∧
        s.book.purchaseIdOf r terms.config.saleId =
          .ok (Book.derivedId terms.config.saleId k, k + 1) ∧
        ∀ checked record b', s.book.commitPurchase r checked s.now = .ok (record, b') →
          record.purchaseId = Book.derivedId terms.config.saleId k ∧ b'.nextSeq = k + 1 := by
  refine ⟨h.nodup_receipts, ?_, fun es₁ i r id es₂ j r' id' => Files.ne, ?_, ?_,
    fun r id checked hr => Book.commitPurchase_duplicate_iff hr, ?_⟩
  · rintro before i r receipt later rfl
    exact h.filed_of_receipt
  · rintro before i r during currency rate rest id rfl hduring hrest hr hid
    exact h.refusedAsDuplicate hduring hrest hr hid
  · rintro before i r during e later rfl hduring
    exact h.untouched_of_error hduring
  · intro r terms hr hterms hinj
    obtain ⟨k, -, hk, hid⟩ := Book.purchaseIdOf_derived hr hinj
    refine ⟨k, hk, hid, fun checked record b' hcommit => ?_⟩
    obtain ⟨terms', k', hterms', hk', hrecord, hnext⟩ := Book.derived_of_commitPurchase hr hcommit
    obtain rfl : terms = terms' := by rwa [hterms, Option.some.injEq] at hterms'
    obtain rfl := hk.unique hk'
    exact ⟨hrecord, hnext⟩

/-! ## a derived identity that is taken -/

/-- Thirty tokens, under the identity that would be derived first. -/
def Sample.claim : PurchaseRequest :=
  { request with purchaseId := some (Book.derivedId config.saleId 0) }

/-- The book once they were bought. -/
def Sample.claimed : Book :=
  ((Operation.purchase claim).program.alone reply Sample.open (configured reply)).book

/-- A run that leaves the first derived identity claimed by a caller. -/
theorem Sample.run_claimed :
    ∃ es, Run Forward (.start early) es (.idle claimed Sample.open) := by
  obtain ⟨es₁, h₁⟩ := Sample.run_configured reply
  obtain ⟨es₂, h₂⟩ := Run.alone Forward reply 0 (.purchase claim)
    (s := .idle (configured reply) Sample.open) rfl
  exact ⟨_, h₁.append h₂⟩

theorem Sample.derivedId_ne : Book.derivedId config.saleId 0 ≠ Book.derivedId config.saleId 1 := by
  decide +kernel

theorem Sample.claimed_eq : claimed.purchases.keys = [Book.derivedId config.saleId 0] ∧
    claimed.nextSeq = 0 ∧ claimed.terms.map (fun t => t.config.saleId) = some config.saleId := by
  decide +kernel

theorem Sample.candidates_claimed : claimed.candidates = {0, 1} := by
  obtain ⟨hkeys, hnext, -⟩ := claimed_eq
  have hsize : claimed.purchases.size = 1 := by
    simpa [Directory.keys, Directory.size] using congrArg List.length hkeys
  ext k
  simp only [Book.candidates, hsize, hnext, Set.mem_Icc, Set.mem_insert_iff,
    Set.mem_singleton_iff]
  omega

/-- The next purchase without an identity gets the second one. -/
theorem purchase_ids_commit_once_past_claim : ∃ es s,
    Run Forward (.start Sample.early) es s ∧
    s.book.purchases.contains (Book.derivedId Sample.config.saleId 0) = true ∧
    s.book.purchaseIdOf { Sample.request with purchaseId := none } Sample.config.saleId =
      .ok (Book.derivedId Sample.config.saleId 1, 2) := by
  obtain ⟨es, h⟩ := Sample.run_claimed
  obtain ⟨hkeys, hnext, hterms⟩ := Sample.claimed_eq
  obtain ⟨terms, hterms, hsale⟩ := Option.map_eq_some_iff.1 hterms
  have htaken : Sample.claimed.purchases.contains (Book.derivedId Sample.config.saleId 0) = true :=
    Directory.contains_iff_mem_keys.2 (by simp [hkeys])
  have hfree :
      Sample.claimed.purchases.contains (Book.derivedId Sample.config.saleId 1) = false := by
    rw [Bool.eq_false_iff, Ne, Directory.contains_iff_mem_keys, hkeys, List.mem_singleton]
    exact Sample.derivedId_ne.symm
  have hinj : Set.InjOn (Book.derivedId Sample.config.saleId) Sample.claimed.candidates := by
    rw [Sample.candidates_claimed, Set.injOn_pair]
    exact fun heq => absurd heq Sample.derivedId_ne
  obtain ⟨-, -, -, -, -, -, hsearch⟩ := purchase_ids_commit_once h
  obtain ⟨k, hk, hid, -⟩ := hsearch { Sample.request with purchaseId := none } terms rfl hterms
    (hsale ▸ hinj)
  rw [hsale] at hk hid
  obtain rfl : k = 1 := by
    refine hk.unique ?_
    change Book.FirstFree _ _ Sample.claimed.nextSeq 1
    rw [hnext]
    exact (Book.firstFree_self hfree).pred htaken
  exact ⟨es, _, h, htaken, hid⟩

end TokenSale
