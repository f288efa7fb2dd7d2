import TokenSale.Proofs.Warrant

/-!
# TokenSale.Proofs.Permission

The permission to buy for somebody else is looked up before the lock is taken
and not again under it, unlike the acceptance of the currency.  So a purchase
can be committed without the permission, but only in one way: the caller looked
it up before the sale had opened, and it was withdrawn before the commit.

* `Book.AllowsBeneficial`, `Withdrawn` — the permission, and how it goes away;
* `permission_of_commit` — what a commit says about the permission;
* `permission_withdrawn_before_commit` — one that is made without it.
-/

namespace TokenSale

/-- Somebody may buy for somebody else. -/
def Book.AllowsBeneficial (b : Book) : Prop :=
  ∃ c, b.config? = some c ∧ c.allowBeneficialInvestments = true

/-- What passes the first check has an accepted currency, and permission if it names
a beneficiary. -/
theorem precheck_ok {config : Option SaleConfig} {r : PurchaseRequest}
    (h : Sale.precheck config r = .ok ()) : ∃ c, config = some c ∧ c.accepts r.currency = true ∧
      (r.recipient ≠ r.buyer → c.allowBeneficialInvestments = true) := by
  unfold Sale.precheck at h
  split at h
  · contradiction
  next c =>
  split at h
  · contradiction
  next haccepts =>
  split at h
  · contradiction
  next hallowed =>
  refine ⟨c, rfl, by simpa using haccepts, fun hne => ?_⟩
  by_contra hnot
  exact hallowed ⟨hne, by simpa using hnot⟩

/-- From one moment of a run to another the permission is withdrawn, by a
configuration operation and before the sale has opened. -/
def Withdrawn (s : System) (es : List Event) (s' : System) : Prop :=
  ∃ es₁ i es₂ s₁ s₂ o p change version, es = es₁ ++ .lock i :: es₂ ∧ Run Forward s es₁ s₁ ∧
    Step Forward s₁ (.lock i) s₂ ∧ Run Forward s₂ es₂ s' ∧ s₁.sessions i = some ⟨o, p⟩ ∧
    o.change? = some (.ok change) ∧ s₁.book.change change s₁.now = .ok (version, s₂.book) ∧
    ¬ s₁.book.HasOpened s₁.now ∧ s₁.book.AllowsBeneficial ∧ ¬ s₂.book.AllowsBeneficial

variable {t : Instant} {es es' : List Event} {s s' : System} {e : Event}

/-- A permission goes away by being withdrawn, and only until the sale opens. -/
theorem Run.withdrawn (h : Run Forward (.start t) es s) (h' : Run Forward s es' s')
    (hallowed : s.book.AllowsBeneficial) (hnot : ¬ s'.book.AllowsBeneficial) :
    ¬ s.book.HasOpened s.now ∧ Withdrawn s es' s' := by
  obtain ⟨es₁, e, es₂, s₁, s₂, rfl, h₁, hs, h₂, hyes, hno⟩ :=
    h'.turns (P := fun s => s.book.AllowsBeneficial) hallowed hnot
  have hconfig : s₂.book.config? ≠ s₁.book.config? := fun heq => hno <| by
    obtain ⟨c, hc, hpermission⟩ := hyes
    exact ⟨c, heq.trans hc, hpermission⟩
  obtain hsealed | ⟨i, o, p, rfl, hi, ⟨c, version, ho, hc⟩ | ⟨r, checked, x, -, hc⟩⟩ :=
    hs.book_cases (h.append h₁)
  · exact absurd hsealed.fixed.config hconfig
  · have hclosed : ¬ s₁.book.HasOpened s₁.now := (Book.change_ok hc).1
    refine ⟨fun hopen => hclosed ((h.advances h₁).opened hopen).1, ?_⟩
    exact ⟨es₁, i, es₂, s₁, s₂, o, p, c, version, rfl, h₁, hs, h₂, hi, ho, hc, hclosed, hyes, hno⟩
  · exact absurd (Book.fixed_of_commitPurchase hc).config hconfig

/-- **What a commit says about the permission.**  Whenever a purchase is filed
for somebody other than its buyer, the parameters in force accept its currency,
and its caller has found the permission granted earlier in the same call.  It
is still granted, unless the caller looked before the sale had opened and it
was withdrawn after that. -/
theorem permission_of_commit {id : Uuid} {record : PurchaseRecord}
    (h : Run Forward (.start t) es s) (hs : Step Forward s e s')
    (hnone : s.book.purchases.get? id = none) (hsome : s'.book.purchases.get? id = some record)
    (hbeneficiary : record.beneficiary ≠ record.buyer) :
    (∃ c, s.book.config? = some c ∧ s'.book.config? = some c ∧
      c.accepts record.plan.currency = true) ∧
    ∃ i es₁ es₂ s₁, e = .lock i ∧ es = es₁ ++ .lock i :: es₂ ∧
      (∀ e ∈ es₂, e.isFinishOf i = false) ∧ Run Forward (.start t) es₁ s₁ ∧
      Run Forward s₁ (.lock i :: es₂) s ∧ s₁.book.AllowsBeneficial ∧
      (s.book.AllowsBeneficial ∨
        ¬ s₁.book.HasOpened s₁.now ∧ Withdrawn s₁ (.lock i :: es₂) s) := by
  obtain ⟨-, i, r, rfl, hcommitting⟩ := h.committing hs hnone hsome
  obtain ⟨-, -, terms, hterms, haccepts, -, hallocate⟩ :=
    Book.plan_ok (Book.commitPurchase_ok hcommitting.commit).1
  have hcurrency : record.plan.currency = r.currency := (allocate_ok hallocate).1.2.2
  have hconfig : s.book.config? = some terms.config := by simp [Book.config?, hterms]
  refine ⟨⟨terms.config, hconfig, ?_, hcurrency ▸ haccepts⟩, ?_⟩
  · rw [(Book.fixed_of_commitPurchase hcommitting.commit).config, hconfig]
  obtain ⟨before, during, s₀, found, rfl, hduring, hbefore, hrun, hwarranted, hfound⟩ :=
    hcommitting.call
  obtain ⟨b, now, hlooked, hprecheck⟩ := hwarranted.looked
  obtain ⟨es₁, es₂, s₁, rfl, h₁, h₂, rfl, rfl⟩ := hfound _ hlooked
  obtain ⟨c, hc, -, hallowed⟩ := precheck_ok hprecheck
  have hyes : s₁.book.AllowsBeneficial := by
    refine ⟨c, hc, hallowed ?_⟩
    rw [Book.newRecord_of_commitPurchase hcommitting.commit] at hbeneficiary
    exact hbeneficiary
  have hlooking : Run Forward (.start t) (before ++ [.begin i (.purchase r)] ++ es₁) s₁ :=
    hbefore.append h₁
  refine ⟨i, before ++ [.begin i (.purchase r)] ++ es₁, es₂, s₁, rfl, by simp, fun e he => ?_,
    hlooking, h₂, hyes, ?_⟩
  · exact hduring e (List.mem_append_right _ (List.mem_cons_of_mem _ he))
  · by_cases hstill : s.book.AllowsBeneficial
    · exact .inl hstill
    · exact .inr (hlooking.withdrawn h₂ hyes hstill)

/-! ## a permission that is withdrawn -/

/-- One more operation is run by itself while others are under way. -/
theorem Run.andAlone {clock : Instant → Instant → Prop} (h : Run clock s es s')
    (reply : (c : Call) → c.Answer) (i : Nat) (o : Operation) (hi : s'.sessions i = none) :
    ∃ es', Run clock s es' { s' with book := (o.program.alone reply s'.now s'.book).book } := by
  obtain ⟨es', h'⟩ := Run.alone clock reply i o hi
  exact ⟨_, h.append h'⟩

/-- The sale of `Sample.config`, in which somebody may buy for somebody else. -/
def Sample.beneficialConfig : SaleConfig := { config with allowBeneficialInvestments := true }

/-- Thirty tokens for somebody else. -/
def Sample.gift : PurchaseRequest := { request with beneficiary := some ⟨"bob"⟩ }

/-- A caller looks up the permission a second before the sale opens.  While
compliance is asked the permission is withdrawn and the sale opens, and then
the purchase is committed. -/
theorem Sample.run_withdrawn : ∃ es s s' record, Run Forward (.start early) es s ∧
    Step Forward s (.lock 1) s' ∧ s.book.purchases.get? ⟨7, by decide⟩ = none ∧
    s'.book.purchases.get? ⟨7, by decide⟩ = some record ∧ record.beneficiary ≠ record.buyer ∧
    s.book.config?.map SaleConfig.allowBeneficialInvestments = some false := by
  have h₀ : Run Forward (.start early) [] (.start early) := .refl
  obtain ⟨es₁, h₁⟩ := h₀.andAlone reply 0 (.configure beneficialConfig specs) rfl
  have hlooked := (h₁.step (.begin (i := 1) (.purchase gift) rfl)).step (.lock (i := 1) rfl)
  have hasked := hlooked.step (.answer (i := 1) (reply (.compliance ⟨"bob"⟩)) rfl)
  obtain ⟨es₂, h₂⟩ := hasked.andAlone reply 0 (.setAllowBeneficialInvestments false) rfl
  have hopen := h₂.step (.tick (show early ≤ Sample.open by decide))
  have hchecked := hopen.step (.answer (i := 1) (reply (.rate (.ofText "USD"))) rfl)
  exact ⟨_, _, _, _, hchecked, .lock (i := 1) rfl, rfl, rfl, by decide, rfl⟩

/-- A withdrawn permission is no permission. -/
theorem Book.not_allowsBeneficial {b : Book}
    (h : b.config?.map SaleConfig.allowBeneficialInvestments = some false) :
    ¬ b.AllowsBeneficial := by
  rintro ⟨c, hc, hallowed⟩
  simp [hc, hallowed] at h

/-- The permission was withdrawn between the look and the commit. -/
theorem permission_withdrawn_before_commit : ∃ es s s' record,
    Run Forward (.start Sample.early) es s ∧ Step Forward s (.lock 1) s' ∧
    s'.book.purchases.get? ⟨7, by decide⟩ = some record ∧ record.beneficiary ≠ record.buyer ∧
    ∃ es₂ s₁, s₁.book.AllowsBeneficial ∧ Withdrawn s₁ (.lock 1 :: es₂) s := by
  obtain ⟨es, s, s', record, h, hs, hnone, hsome, hne, hconfig⟩ := Sample.run_withdrawn
  obtain ⟨-, i, es₁, es₂, s₁, hi, -, -, -, -, hallowed, hstill⟩ :=
    permission_of_commit h hs hnone hsome hne
  cases hi
  obtain hstill | ⟨-, hwithdrawn⟩ := hstill
  · exact absurd hstill (Book.not_allowsBeneficial hconfig)
  · exact ⟨es, s, s', record, h, hs, hsome, hne, es₂, s₁, hallowed, hwithdrawn⟩

/-- So a purchase for somebody else does not show that it is permitted. -/
theorem committed_without_permission : ¬ ∀ (t : Instant) (es : List Event) (s : System) (e : Event)
    (s' : System) (id : Uuid) (record : PurchaseRecord), Run Forward (.start t) es s →
      Step Forward s e s' → s.book.purchases.get? id = none →
      s'.book.purchases.get? id = some record → record.beneficiary ≠ record.buyer →
      s.book.AllowsBeneficial := by
  intro hclaim
  obtain ⟨es, s, s', record, h, hs, hnone, hsome, hne, hconfig⟩ := Sample.run_withdrawn
  exact Book.not_allowsBeneficial hconfig (hclaim _ es s _ s' _ record h hs hnone hsome hne)

end TokenSale
