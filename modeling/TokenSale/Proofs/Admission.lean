import TokenSale.Proofs.Conservation
import TokenSale.Proofs.Freshness
import TokenSale.Proofs.PrefixCost
import TokenSale.Proofs.Warrant

/-!
# TokenSale.Proofs.Admission

Every purchase on record was admitted by the rules of the sale as they are now
and ever after.  The rules stand in four places: what is checked before the
lock is taken, what is planned under it, whether the rate is fresh, and what
the allocation refuses.  They are the rules now in force because the
parameters are fixed once the sale has opened.

* `allocate_guards` — what the allocation refuses;
* `PurchaseRecord.KeepsTo` — the rules that relate a purchase to the parameters;
* `PurchaseRecord.AdmittedAt` — those that relate it to the moment it was
  committed and to the call that asked for it;
* `admission_of_run` — both for every purchase on record.
-/

namespace TokenSale

/-! ## what the allocation refuses -/

/-- What is planned is worth something, at a usable rate, and as much as was
asked for; a first purchase is not below the minimum. -/
theorem allocate_guards {policy : AllocationPolicy} {input : AllocationInput} {tiers : TierLedger}
    {caps : CapTracker} {plan : AllocationPlan} (h : allocate policy input tiers caps = .ok plan) :
    0 < input.amount.val ∧ input.rate.isUsable = true ∧ plan.rate = input.rate ∧
      (caps.hasInvested input.investor = false → policy.minimumInvestment ≤ plan.requestedUnits) ∧
      ∀ least, input.minTokens = some least → least ≤ plan.result.tokensAllocated := by
  have hplan := made_of_allocate h
  exact ⟨hplan.start.amount, hplan.start.usable, hplan.rate, hplan.start.minimum, hplan.least⟩

/-- Discounted parts are on offer to those who are eligible only. -/
theorem eligible_of_mem_slotsFrom {eligible : Bool} {index : Nat} {tiers : List Tier} {s : Slot}
    (h : s ∈ slotsFrom eligible index tiers) (hs : s.isDiscount = true) : eligible = true := by
  induction tiers generalizing index with
  | nil => contradiction
  | cons t rest ih =>
      rw [slotsFrom, List.mem_append] at h
      obtain h | h := h
      · cases eligible with
        | true => rfl
        | false =>
            simp only [Tier.slots, Tier.offeredDiscount, List.mem_filter, List.mem_cons,
              List.not_mem_nil, or_false] at h
            obtain ⟨rfl | rfl, hopen⟩ := h
            · contradiction
            · contradiction
      · exact ih h

/-- A discount fill is only planned for a payment in the discount currency. -/
theorem discount_of_allocate {policy : AllocationPolicy} {input : AllocationInput}
    {tiers : TierLedger} {caps : CapTracker} {plan : AllocationPlan} (ht : tiers.Built)
    (h : allocate policy input tiers caps = .ok plan) {f : Fill} (hf : f ∈ plan.fills)
    (hdiscount : f.isDiscount = true) : policy.discountCurrency = some input.currency := by
  obtain ⟨s, hs, hfill, -⟩ := (greedy_of_allocate ht h).exists_slot f hf
  have heligible := eligible_of_mem_slotsFrom hs (by rw [← hdiscount, hfill]; rfl)
  simpa [AllocationPolicy.isDiscountEligible] using heligible

/-! ## the rules of a sale -/

/-- A purchase keeps to the rules of a sale with these parameters. -/
structure PurchaseRecord.KeepsTo (record : PurchaseRecord) (c : SaleConfig) : Prop where
  started : c.startTime ≤ record.committedAt
  notEnded : record.committedAt < c.endTime
  accepted : c.accepts record.plan.currency = true
  usable : record.rate.isUsable = true
  observed : record.rate.asOf ≤ record.committedAt
  fresh : record.committedAt.wholeSecondsSince record.rate.asOf ≤ c.rateToleranceSecs
  /-- It was planned at the rate that is on record. -/
  planned : record.plan.rate = record.rate
  amount : 0 < record.plan.amount.val
  discount : ∀ f ∈ record.plan.fills, f.isDiscount = true →
    c.discountCurrency = some record.plan.currency

/-- How a purchase was admitted to a sale with the parameters `c`: at the moment
`s`, for the request `r` that caller `i` had made, after all that had happened. -/
structure PurchaseRecord.AdmittedAt (record : PurchaseRecord) (c : SaleConfig) (es : List Event)
    (s : System) (i : Nat) (r : PurchaseRequest) : Prop where
  committedAt : record.committedAt = s.now
  filedFor : record.FiledFor r
  currency : record.plan.currency = r.currency
  minTokens : ∀ least, r.minTokens = some least → least ≤ record.plan.result.tokensAllocated
  notPaused : s.book.paused = false
  /-- A first purchase for its beneficiary is not below the minimum. -/
  first : (∀ id x, s.book.purchases.get? id = some x → x.beneficiary ≠ record.beneficiary) →
    c.minimumInvestment ≤ record.plan.requestedUnits
  /-- The caller asked in the same call and was told so. -/
  call : ∃ before during, es = before ++ .begin i (.purchase r) :: during ∧
    (∀ e ∈ during, e.isFinishOf i = false) ∧
    .answer i (.purchase r) (.compliance record.beneficiary)
      (.ok ⟨true, record.investorClass⟩) ∈ during ∧
    .answer i (.purchase r) (.rate record.plan.currency) (.ok record.rate) ∈ during

namespace Book

variable {b b' : Book} {now : Instant} {r : PurchaseRequest} {checked : Checked}
  {record : PurchaseRecord}

theorem window_of_opened (h : b.state now = .opened) {t : Terms} (ht : b.terms = some t) :
    t.config.startTime ≤ now ∧ now < t.config.endTime := by
  rw [state_eq_of_terms ht, SaleState.derive] at h
  split at h
  · contradiction
  next hstart =>
  split at h
  · contradiction
  next hend => exact ⟨Instant.not_lt.1 hstart, Instant.not_le.1 fun hle => hend (.inl hle)⟩

/-- Who has bought is on record. -/
theorem Reconciles.hasInvested (h : b.Reconciles) {i : InvestorId}
    (hfirst : ∀ id x, b.purchases.get? id = some x → x.beneficiary ≠ i) :
    b.caps.hasInvested i = false := by
  by_contra hinvested
  obtain ⟨x, hx, hbeneficiary⟩ :=
    (h.investors i).1 (by simpa [CapTracker.hasInvested] using hinvested)
  obtain ⟨⟨id, y⟩, hy, rfl⟩ := List.mem_map.1 hx
  exact hfirst id y (Directory.get?_eq_some_iff.2 hy) hbeneficiary

/-- A purchase that is committed keeps to the rules of that moment. -/
theorem keepsTo_of_commitPurchase (hb : b.Balanced)
    (h : b.commitPurchase r checked now = .ok (record, b')) :
    ∃ c, b.config? = some c ∧ record.KeepsTo c := by
  have hnew := newRecord_of_commitPurchase h
  obtain ⟨hopen, -, t, ht, haccepts, hfresh, hallocate⟩ := plan_ok (commitPurchase_ok h).1
  have hrate : record.rate = checked.rate := by rw [hnew]; rfl
  have hnow : record.committedAt = now := by rw [hnew]; rfl
  obtain ⟨hstart, hend⟩ := window_of_opened hopen ht
  obtain ⟨husable, hobserved, hage⟩ := Rate.checkFresh_eq_ok_iff.1 hfresh
  obtain ⟨hamount, -, hplanned, -, -⟩ := allocate_guards hallocate
  have hcurrency : record.plan.currency = r.currency := (allocate_ok hallocate).1.2.2
  refine ⟨t.config, by simp [config?, ht], ?_⟩
  exact {
    started := hnow ▸ hstart
    notEnded := hnow ▸ hend
    accepted := hcurrency ▸ haccepts
    usable := hrate ▸ husable
    observed := hnow ▸ hrate ▸ hobserved
    fresh := hnow ▸ hrate ▸ hage
    planned := hplanned.trans hrate.symm
    amount := (allocate_adds hallocate).amount ▸ hamount
    discount := fun f hf hdiscount =>
      hcurrency ▸ discount_of_allocate (hb.built t ht) hallocate hf hdiscount }

end Book

/-- Whoever commits a purchase has it admitted. -/
theorem Committing.admittedAt {t : Instant} {es : List Event} {s : System} {i : Nat}
    {r : PurchaseRequest} {record : PurchaseRecord} {b' : Book} {c : SaleConfig}
    (h : Committing Forward t es s i r record b') (hr : s.book.Reconciles)
    (hc : s.book.config? = some c) : record.AdmittedAt c es s i r := by
  have hnew := Book.newRecord_of_commitPurchase h.commit
  obtain ⟨-, hpaused, terms, hterms, -, -, hallocate⟩ :=
    Book.plan_ok (Book.commitPurchase_ok h.commit).1
  obtain ⟨-, -, -, hminimum, hleast⟩ := allocate_guards hallocate
  have hfor := Book.filedFor_of_commitPurchase h.commit
  have hcurrency : record.plan.currency = r.currency := (allocate_ok hallocate).1.2.2
  have hconfig : terms.config = c := by simpa [Book.config?, hterms] using hc
  obtain ⟨before, during, s₀, found, hes, hduring, -, -, hwarranted, hfound⟩ := h.call
  refine {
    committedAt := by rw [hnew]; rfl
    filedFor := hfor
    currency := hcurrency
    minTokens := hleast
    notPaused := hpaused
    first := fun hfirst => ?_
    call := ⟨before, during, hes, hduring, ?_, ?_⟩ }
  · rw [hfor.beneficiary] at hfirst
    exact hconfig ▸ hminimum (hr.hasInvested hfirst)
  · rw [hfor.beneficiary]
    exact hfound _ hwarranted.allowed
  · rw [hcurrency]
    exact hfound _ hwarranted.quoted

/-- **Every purchase on record was admitted by the rules now in force.** -/
theorem admission_of_run {t : Instant} {es : List Event} {s : System} {id : Uuid}
    {record : PurchaseRecord} (h : Run Forward (.start t) es s)
    (hrecord : s.book.purchases.get? id = some record) :
    ∃ c, s.book.config? = some c ∧ record.KeepsTo c ∧ ∃ es₁ i es₂ s₁ s₂ r,
      es = es₁ ++ .lock i :: es₂ ∧ Run Forward (.start t) es₁ s₁ ∧ Step Forward s₁ (.lock i) s₂ ∧
      Run Forward s₂ es₂ s ∧ s₁.book.purchases.get? id = none ∧
      s₂.book.purchases.get? id = some record.filed ∧ record.AdmittedAt c es₁ s₁ i r := by
  obtain ⟨hid, es₁, i, es₂, s₁, s₂, r, rfl, h₁, hs, h₂, hcommitting⟩ := h.origin hrecord
  obtain ⟨hr, hb⟩ := h₁.reconciles_balanced
  obtain ⟨c, hc, hkeeps⟩ := Book.keepsTo_of_commitPurchase hb hcommitting.commit
  -- the sale is open when the purchase is committed, so its parameters stay
  have hopen : s₁.book.HasOpened s₁.now :=
    Book.hasOpened_iff_state.2 (.inl (Book.plan_ok (Book.commitPurchase_ok hcommitting.commit).1).1)
  have hfixed := ((h₁.advances (.cons hs h₂)).opened hopen).2
  obtain ⟨hfree, -, hpurchases, -⟩ := Book.purchases_of_commitPurchase hcommitting.commit
  have hsame : record.filed.purchaseId = id := hid
  obtain ⟨committedAt, filedFor, currency, minTokens, notPaused, first, call⟩ :=
    hcommitting.admittedAt hr hc
  refine ⟨c, hfixed.config.trans hc, ?_, es₁, i, es₂, s₁, s₂, r, rfl, h₁, hs, h₂, hsame ▸ hfree,
    ?_, ?_⟩
  · exact { hkeeps with }
  · rw [hpurchases, ← hsame, Directory.get?_insert_self]
  · exact {
      committedAt, filedFor := { filedFor with }, currency, minTokens, notPaused, first, call }

/-- Thirty tokens are sold while the sale is open. -/
theorem admission_of_one_purchase : ∃ es s record c, Run Forward (.start Sample.early) es s ∧
    s.book.purchases.get? ⟨7, by decide⟩ = some record ∧ s.book.config? = some c ∧
    record.KeepsTo c ∧ record.committedAt = Sample.open := by
  obtain ⟨es, h⟩ := Sample.run_sold Sample.reply
  obtain ⟨record, hrecord, hcommitted⟩ : ∃ record,
      (Sample.sold Sample.reply).purchases.get? ⟨7, by decide⟩ = some record ∧
        record.committedAt = Sample.open := ⟨_, rfl, rfl⟩
  obtain ⟨c, hc, hkeeps, -⟩ := admission_of_run h hrecord
  exact ⟨es, _, record, c, h, hrecord, hc, hkeeps, hcommitted⟩

end TokenSale
