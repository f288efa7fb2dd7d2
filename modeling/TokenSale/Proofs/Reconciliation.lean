import TokenSale.Proofs.GreedyWalk
import TokenSale.Proofs.Lifecycle

/-!
# TokenSale.Proofs.Reconciliation

Every sum that a sale keeps is the sum over the purchases on record.  The sums
are kept in five places and changed apart from the records, and a change of
the parameters can replace the tiers with theirs; that is refused from the
first purchase on.

* `Book.SumsOf` — the sums of a book are those of some purchases;
* `sumsOf_commitPurchase` — a purchase adds itself to all of them;
* `reconciles_of_run` — they are those of the purchases on record.
-/

namespace TokenSale

/-! ## sums over records -/

/-- The fills of all purchases. -/
def fillsOf (rs : List PurchaseRecord) : List Fill := rs.flatMap fun r => r.plan.fills

/-- The purchases paid in a currency. -/
def paidIn (rs : List PurchaseRecord) (c : Currency) : List PurchaseRecord :=
  rs.filter fun r => r.plan.currency = c

/-- The purchases made for an investor. -/
def madeFor (rs : List PurchaseRecord) (i : InvestorId) : List PurchaseRecord :=
  rs.filter fun r => r.beneficiary = i

/-- The units that purchases cost. -/
def unitsOf (rs : List PurchaseRecord) : Nat :=
  (rs.map fun r => r.plan.result.unitsConsumed.val).sum

/-- The part of their payments that is kept. -/
def fundsOf (rs : List PurchaseRecord) : Nat :=
  (rs.map fun r => r.plan.result.fundsConsumed.val).sum

/-- The tokens that they bought. -/
def tokensOf (rs : List PurchaseRecord) : Nat :=
  (rs.map fun r => r.plan.result.tokensAllocated.val).sum

theorem fillsOf_cons (r : PurchaseRecord) (rs : List PurchaseRecord) :
    fillsOf (r :: rs) = r.plan.fills ++ fillsOf rs := List.flatMap_cons

theorem paidIn_cons (r : PurchaseRecord) (rs : List PurchaseRecord) (c : Currency) :
    paidIn (r :: rs) c = (if c = r.plan.currency then [r] else []) ++ paidIn rs c := by
  by_cases hc : c = r.plan.currency <;> simp [paidIn, hc, eq_comm]

theorem madeFor_cons (r : PurchaseRecord) (rs : List PurchaseRecord) (i : InvestorId) :
    madeFor (r :: rs) i = (if i = r.beneficiary then [r] else []) ++ madeFor rs i := by
  by_cases hi : i = r.beneficiary <;> simp [madeFor, hi, eq_comm]

/-- The sum kept under a currency. -/
def sumIn {s : Scale} (d : Directory Currency (Quantity s)) (c : Currency) : Nat :=
  ((d.get? c).getD .zero).val

/-- The same purchases, in any order and however far their settlements have come. -/
def SamePurchases (rs rs' : List PurchaseRecord) : Prop :=
  (rs.map PurchaseRecord.filed).Perm (rs'.map PurchaseRecord.filed)

namespace SamePurchases

variable {rs rs' : List PurchaseRecord}

theorem of_perm (h : rs.Perm rs') : SamePurchases rs rs' := h.map _

/-- A sum over the filed part of the records is the same for both. -/
theorem sum {f : PurchaseRecord → Nat} (h : SamePurchases rs rs') (hf : ∀ r, f r.filed = f r) :
    (rs.map f).sum = (rs'.map f).sum := by
  have hfiled (l : List PurchaseRecord) : (l.map .filed).map f = l.map f := by
    simp [Function.comp_def, hf]
  rw [← hfiled rs, ← hfiled rs']
  exact (h.map f).sum_eq

/-- A choice by the filed part of the records is the same for both. -/
theorem filter {p : PurchaseRecord → Bool} (h : SamePurchases rs rs')
    (hp : ∀ r, p r.filed = p r) : SamePurchases (rs.filter p) (rs'.filter p) := by
  have hfiled (l : List PurchaseRecord) : (l.filter p).map .filed = (l.map .filed).filter p := by
    simp [List.filter_map, Function.comp_def, hp]
  rw [SamePurchases, hfiled, hfiled]
  exact List.Perm.filter p h

/-- The fills are the same up to their order. -/
theorem fillsOf (h : SamePurchases rs rs') : (fillsOf rs).Perm (fillsOf rs') := by
  have hfiled (l : List PurchaseRecord) : TokenSale.fillsOf (l.map .filed) = TokenSale.fillsOf l :=
    List.flatMap_map ..
  rw [← hfiled rs, ← hfiled rs']
  exact List.Perm.flatMap_right _ h

theorem exists_beneficiary (h : SamePurchases rs rs') {i : InvestorId} :
    (∃ r ∈ rs, r.beneficiary = i) ↔ ∃ r ∈ rs', r.beneficiary = i := by
  have hfiled (l : List PurchaseRecord) :
      (∃ r ∈ l, r.beneficiary = i) ↔ ∃ r ∈ l.map PurchaseRecord.filed, r.beneficiary = i := by
    simp [PurchaseRecord.filed]
  rw [hfiled rs, hfiled rs']
  simp only [List.Perm.mem_iff h]

theorem length_eq (h : SamePurchases rs rs') : rs.length = rs'.length := by
  simpa using List.Perm.length_eq h

end SamePurchases

namespace Book

/-- The sums of the book are those of the purchases `rs`. -/
structure SumsOf (rs : List PurchaseRecord) (b : Book) : Prop where
  inRange : ∀ f ∈ fillsOf rs, f.tierIndex < b.tiers.length
  totalSold : ∀ i (t : Tier), b.tiers[i]? = some t → t.totalSold.val = soldOf (fillsOf rs) i
  discountSold : ∀ i (t : Tier), b.tiers[i]? = some t →
    t.discountSold.val = discountSoldOf (fillsOf rs) i
  unitsRaised : b.unitsRaised.val = unitsOf rs
  fundsRaised : ∀ c, sumIn b.fundsRaised c = fundsOf (paidIn rs c)
  tokensByCurrency : ∀ c, sumIn b.tokensByCurrency c = tokensOf (paidIn rs c)
  investors : ∀ i, b.caps.investors.contains i = true ↔ ∃ r ∈ rs, r.beneficiary = i
  investedUnits : ∀ i (x : CapState), b.caps.investors.get? i = some x →
    x.investedUnits.val = unitsOf (madeFor rs i)
  tokensBought : ∀ i (x : CapState), b.caps.investors.get? i = some x →
    x.tokensBought.val = tokensOf (madeFor rs i)
  purchaseCount : ∀ i (x : CapState), b.caps.investors.get? i = some x →
    x.purchaseCount = min (madeFor rs i).length CapTracker.countLimit

/-- The sums of the book are those of the purchases on record. -/
def Reconciles (b : Book) : Prop := b.SumsOf b.purchases.values

variable {rs rs' : List PurchaseRecord} {b b' : Book} {now : Instant}

/-- The sums of a book depend on what was filed, not on how far it is settled. -/
theorem SumsOf.congr (h : b.SumsOf rs) (hs : SamePurchases rs rs') : b.SumsOf rs' := by
  have hfills : (fillsOf rs).Perm (fillsOf rs') := hs.fillsOf
  have hpaid (c : Currency) : SamePurchases (paidIn rs c) (paidIn rs' c) := hs.filter fun _ => rfl
  have hmade (i : InvestorId) : SamePurchases (madeFor rs i) (madeFor rs' i) :=
    hs.filter fun _ => rfl
  exact {
    inRange := fun f hf => h.inRange f (hfills.mem_iff.2 hf)
    totalSold := fun i t ht => (h.totalSold i t ht).trans (soldOf_perm hfills i)
    discountSold := fun i t ht => (h.discountSold i t ht).trans (discountSoldOf_perm hfills i)
    unitsRaised := h.unitsRaised.trans (hs.sum fun _ => rfl)
    fundsRaised := fun c => (h.fundsRaised c).trans ((hpaid c).sum fun _ => rfl)
    tokensByCurrency := fun c => (h.tokensByCurrency c).trans ((hpaid c).sum fun _ => rfl)
    investors := fun i => (h.investors i).trans hs.exists_beneficiary
    investedUnits := fun i x hx => (h.investedUnits i x hx).trans ((hmade i).sum fun _ => rfl)
    tokensBought := fun i x hx => (h.tokensBought i x hx).trans ((hmade i).sum fun _ => rfl)
    purchaseCount := fun i x hx => by rw [h.purchaseCount i x hx, (hmade i).length_eq] }

/-! ## a purchase adds itself -/

theorem tiers_eq {t : Terms} (h : b.terms = some t) : b.tiers = t.tiers.tiers := by
  simp [tiers, h]

/-- An amount is added under its currency, the other sums stay. -/
theorem addTo_ok {s : Scale} {d d' : Directory Currency (Quantity s)} {c : Currency}
    {amount : Quantity s} (h : addTo d c amount = some d') (c' : Currency) :
    sumIn d' c' = (if c' = c then amount.val else 0) + sumIn d c' := by
  unfold addTo at h
  obtain ⟨x, hx, rfl⟩ := Option.map_eq_some_iff.1 h
  rw [Quantity.add?_eq_some_iff] at hx
  simp only [sumIn, Directory.get?_insert]
  split
  next hc => simp [hc, hx, Nat.add_comm]
  next hc => simp

/-- The running sums of an investor without a purchase are all zero. -/
theorem SumsOf.caps (h : b.SumsOf rs) (i : InvestorId) :
    (b.caps.currentSpend i).val = unitsOf (madeFor rs i) ∧
      (b.caps.tokensBought i).val = tokensOf (madeFor rs i) ∧
      b.caps.purchaseCount i = min (madeFor rs i).length CapTracker.countLimit := by
  unfold CapTracker.currentSpend CapTracker.tokensBought CapTracker.purchaseCount CapTracker.state?
  cases hx : b.caps.investors.get? i with
  | some x => exact ⟨h.investedUnits i x hx, h.tokensBought i x hx, h.purchaseCount i x hx⟩
  | none =>
      have hnone : madeFor rs i = [] := by
        have hinvestor := h.investors i
        simp only [Directory.contains, hx, Option.isSome_none, Bool.false_eq_true, false_iff,
          not_exists, not_and] at hinvestor
        simpa [madeFor] using hinvestor
      simp [hnone, unitsOf, tokensOf]

/-- The tiers add the fills of a purchase to those before. -/
theorem SumsOf.tiers_commit (h : b.SumsOf rs) {l l' : TierLedger} (hl : b.tiers = l.tiers)
    {r : PurchaseRecord} (hs : l.Sold r.plan.fills l') :
    (∀ f ∈ fillsOf (r :: rs), f.tierIndex < l'.tiers.length) ∧
      ∀ i (t : Tier), l'.tiers[i]? = some t → t.totalSold.val = soldOf (fillsOf (r :: rs)) i ∧
        t.discountSold.val = discountSoldOf (fillsOf (r :: rs)) i := by
  rw [fillsOf_cons]
  constructor
  · rw [hs.size, List.forall_mem_append]
    exact ⟨hs.inRange, hl ▸ h.inRange⟩
  · intro i t' ht'
    obtain ⟨t, ht, hsum⟩ := hs.tier i t' ht'
    rw [← hl] at ht
    constructor
    · rw [hsum.totalSold, h.totalSold i t ht, soldOf_append, Nat.add_comm]
    · rw [hsum.discountSold, h.discountSold i t ht, discountSoldOf_append, Nat.add_comm]

/-- The state of its investor adds a purchase to those before; others stay. -/
theorem SumsOf.caps_commit (h : b.SumsOf rs) {r : PurchaseRecord} {caps : CapTracker}
    (hr : r.beneficiary = r.plan.investor)
    (hc : b.caps.commitSpend r.plan.investor r.plan.result.unitsConsumed r.plan.investorClass
      r.plan.result.tokensAllocated = .ok caps) (i : InvestorId) :
    (caps.investors.contains i = true ↔ ∃ r' ∈ r :: rs, r'.beneficiary = i) ∧
      ∀ x : CapState, caps.investors.get? i = some x →
        x.investedUnits.val = unitsOf (madeFor (r :: rs) i) ∧
        x.tokensBought.val = tokensOf (madeFor (r :: rs) i) ∧
        x.purchaseCount = min (madeFor (r :: rs) i).length CapTracker.countLimit := by
  obtain ⟨x, rfl, -, hinvested, hbought, hcount⟩ := CapTracker.commitSpend_ok hc
  obtain ⟨hspent, hhad, hcounted⟩ := h.caps r.plan.investor
  have hinvestor := h.investors i
  rw [madeFor_cons, hr]
  simp only [Directory.contains, Directory.get?_insert] at hinvestor ⊢
  by_cases hi : i = r.plan.investor
  · subst hi
    simp only [if_true, List.singleton_append]
    refine ⟨by simp [hr], fun y hy => ?_⟩
    cases hy
    refine ⟨?_, ?_, ?_⟩
    · rw [hinvested, hspent, Nat.add_comm]
      rfl
    · rw [hbought, hhad, Nat.add_comm]
      rfl
    · rw [hcount, hcounted, List.length_cons]
      generalize CapTracker.countLimit = limit
      omega
  · simp only [if_neg hi, List.nil_append]
    refine ⟨by simp [hr, Ne.symm hi, hinvestor], fun y hy => ?_⟩
    exact ⟨h.investedUnits i y hy, h.tokensBought i y hy, h.purchaseCount i y hy⟩

/-- **A committed purchase joins every sum of the book.** -/
theorem sumsOf_commitPurchase (h : b.SumsOf rs) {r : PurchaseRequest} {checked : Checked}
    {record : PurchaseRecord} (hc : b.commitPurchase r checked now = .ok (record, b')) :
    b'.SumsOf (record :: rs) := by
  obtain ⟨hplan, hrecord, -⟩ := commitPurchase_ok hc
  obtain ⟨-, -, t, ht, -, -, hallocate⟩ := plan_ok hplan
  obtain ⟨⟨hinvestor, -, hcurrency⟩, -⟩ := allocate_ok hallocate
  obtain ⟨t', tiers, caps, unitsRaised, fundsRaised, tokensByCurrency, id, nextSeq, ht', hcommit,
    hunits, hfunds, htokens, -, hnew, rfl⟩ := recordPlan_ok hrecord
  rw [ht, Option.some.injEq] at ht'
  subst ht'
  obtain ⟨hsold, hspend⟩ := commitPlan_ok hcommit
  have hbeneficiary : record.beneficiary = record.plan.investor := by
    rw [hinvestor, hnew]
    rfl
  have hcurrency : record.plan.currency = r.currency := hcurrency
  obtain ⟨hrange, htiers⟩ := h.tiers_commit (tiers_eq ht) hsold
  have hcaps := h.caps_commit hbeneficiary hspend
  rw [Quantity.add?_eq_some_iff] at hunits
  refine ⟨hrange, fun i u hu => (htiers i u hu).1, fun i u hu => (htiers i u hu).2, ?_, fun c => ?_,
    fun c => ?_, fun i => (hcaps i).1, fun i x hx => ((hcaps i).2 x hx).1,
    fun i x hx => ((hcaps i).2 x hx).2.1, fun i x hx => ((hcaps i).2 x hx).2.2⟩
  · rw [hunits, h.unitsRaised, Nat.add_comm]
    rfl
  · rw [addTo_ok hfunds c, h.fundsRaised c, paidIn_cons, hcurrency]
    split <;> simp [fundsOf]
  · rw [addTo_ok htokens c, h.tokensByCurrency c, paidIn_cons, hcurrency]
    split <;> simp [tokensOf]

/-! ## everything else leaves them alone -/

/-- A sealed step leaves the sums. -/
theorem SumsOf.of_sealed (h : b.SumsOf rs) (hs : b.Sealed b') : b'.SumsOf rs := by
  have htiers : b'.tiers = b.tiers := by rw [tiers, tiers, hs.terms]
  exact ⟨htiers ▸ h.inRange, htiers ▸ h.totalSold, htiers ▸ h.discountSold,
    hs.unitsRaised ▸ h.unitsRaised, hs.fundsRaised ▸ h.fundsRaised,
    hs.tokensByCurrency ▸ h.tokensByCurrency, hs.caps ▸ h.investors, hs.caps ▸ h.investedUnits,
    hs.caps ▸ h.tokensBought, hs.caps ▸ h.purchaseCount⟩

/-- A sealed step leaves a book that reconciles. -/
theorem Reconciles.of_sealed (h : b.Reconciles) (hs : b.Sealed b') : b'.Reconciles := by
  refine (SumsOf.of_sealed h hs).congr ?_
  rw [SamePurchases, values_map_filed, values_map_filed, hs.filed]

/-- A purchase leaves a book that reconciles. -/
theorem reconciles_commitPurchase (h : b.Reconciles) {r : PurchaseRequest} {checked : Checked}
    {record : PurchaseRecord} (hc : b.commitPurchase r checked now = .ok (record, b')) :
    b'.Reconciles := by
  refine (sumsOf_commitPurchase h hc).congr (.of_perm ?_)
  obtain ⟨hfree, -, hpurchases, -⟩ := purchases_of_commitPurchase hc
  rw [hpurchases]
  exact (Directory.values_insert_perm hfree record).symm

/-- The tiers that a configuration operation brings have passed the checks. -/
theorem specs_of_change? {o : Operation} {c : Change} {l : TierLedger}
    (ho : o.change? = some (.ok c)) (hc : c.ledger? = some l) :
    ∃ specs : List TierSpec, TierLedger.ofSpecs specs = .ok l := by
  cases o with
  | configure config specs =>
      simp only [Operation.change?] at ho
      split at ho
      · simp at ho
      · obtain ⟨tiers, hs, rfl⟩ := ok_of_mapError_map (Option.some.inj ho)
        cases hc
        exact ⟨specs, hs⟩
  | setTiers specs =>
      obtain ⟨tiers, hs, rfl⟩ := ok_of_mapError_map (Option.some.inj ho)
      cases hc
      exact ⟨specs, hs⟩
  | _ =>
      simp only [Operation.change?, Option.some.injEq, Except.ok.injEq, reduceCtorEq] at ho
      all_goals
        subst ho
        contradiction

/-- So they are fresh. -/
theorem ledger_of_change? {o : Operation} {c : Change} {l : TierLedger}
    (ho : o.change? = some (.ok c)) (hc : c.ledger? = some l) :
    ∃ specs : List TierSpec, l = ⟨specs.map .fresh⟩ := by
  obtain ⟨specs, hs⟩ := specs_of_change? ho hc
  exact ⟨specs, (TierLedger.ofSpecs_ok hs).2⟩

/-- A change of the parameters keeps sums that are all zero. -/
theorem sumsOf_nil_of_change (h : b.SumsOf []) {o : Operation} {c : Change} {version : Nat}
    (ho : o.change? = some (.ok c)) (hc : b.change c now = .ok (version, b')) :
    b'.SumsOf [] ∧ b'.purchases = b.purchases := by
  obtain ⟨-, -, t, limit, overrides, rfl, htiers⟩ := change_ok hc
  have hzero : ∀ (i : Nat) (u : Tier), t.tiers.tiers[i]? = some u →
      u.totalSold.val = 0 ∧ u.discountSold.val = 0 := by
    intro i u hu
    cases hl : c.ledger? with
    | some tiers =>
        rw [hl] at htiers
        obtain ⟨specs, hfresh⟩ := ledger_of_change? ho hl
        rw [htiers, hfresh, List.getElem?_map, Option.map_eq_some_iff] at hu
        obtain ⟨s, -, rfl⟩ := hu
        exact ⟨rfl, rfl⟩
    | none =>
        rw [hl] at htiers
        obtain ⟨t₀, ht₀, heq⟩ := htiers
        rw [heq, ← tiers_eq ht₀] at hu
        exact ⟨h.totalSold i u hu, h.discountSold i u hu⟩
  exact ⟨⟨by simp [fillsOf], fun i u hu => (hzero i u hu).1, fun i u hu => (hzero i u hu).2,
    h.unitsRaised, h.fundsRaised, h.tokensByCurrency, h.investors, h.investedUnits,
    h.tokensBought, h.purchaseCount⟩, rfl⟩

end Book

/-! ## every run -/

/-- The sums are those of the purchases, and there are none before the sale opens. -/
structure Tracked.Reconciles (g : Tracked) : Prop where
  book : g.book.Reconciles
  opened : g.book.filed ≠ [] → g.book.HasOpened g.now

/-- **Every step of a run under a forward clock leaves a book that reconciles.** -/
theorem Tracked.Step.reconciles {g g' : Tracked} {e : Event} (h : g.Reconciles)
    (hs : Tracked.Step Forward g e g') : g'.Reconciles := by
  have hadv := hs.advances
  cases hs with
  | tick hle => exact ⟨h.book, fun hne => (h.opened hne).mono hle⟩
  | begin | answer | finish => exact ⟨h.book, h.opened⟩
  | @lock i o b' h' hs =>
      obtain hsealed | ⟨c, version, ho, hc⟩ | ⟨r, checked, record, -, hc⟩ := hs.book_cases
      · exact ⟨h.book.of_sealed hsealed,
          fun hne => (hadv.opened (h.opened (hsealed.filed ▸ hne))).1⟩
      · -- the sale has not opened, so there is no purchase yet
        have hfiled : g.book.filed = [] := by_contra fun hne => (Book.change_ok hc).1 (h.opened hne)
        have hnil : g.book.purchases.values = [] := by
          simpa [hfiled] using Book.values_map_filed g.book
        have hbook := h.book
        rw [Book.Reconciles, hnil] at hbook
        obtain ⟨hsums, hpurchases⟩ := Book.sumsOf_nil_of_change hbook ho hc
        refine ⟨?_, fun hne => absurd ?_ hne⟩
        · change b'.SumsOf b'.purchases.values
          rwa [hpurchases, hnil]
        · change b'.filed = []
          rw [Book.filed, hpurchases]
          exact hfiled
      · have hopen : g.book.HasOpened g.now :=
          Book.hasOpened_iff_state.2 (.inl (Book.plan_ok (Book.commitPurchase_ok hc).1).1)
        exact ⟨Book.reconciles_commitPurchase h.book hc, fun _ => (hadv.opened hopen).1⟩

theorem Book.reconciles_blank : Book.blank.Reconciles := by
  refine ⟨?_, ?_, ?_, rfl, fun _ => rfl, fun _ => rfl, ?_, ?_, ?_, ?_⟩
  · simp [blank, Directory.values, Directory.empty, fillsOf]
  all_goals simp [blank, tiers, Directory.values, Directory.empty, CapTracker.withLimit,
    Directory.contains, Directory.get?, Directory.find]

/-- **The sums of a sale are those of the purchases on record**, whatever its
callers do and its services answer.  The purchases of an investor are counted
in 64 bits, so all of them are counted as long as the record, which is in
memory, has no more entries than that. -/
theorem reconciles_of_run {t : Instant} {es : List Event} {s : System}
    (h : Run Forward (.start t) es s) :
    s.book.Reconciles ∧ (s.book.purchases.size ≤ CapTracker.countLimit →
      ∀ i (x : CapState), s.book.caps.investors.get? i = some x →
        x.purchaseCount = (madeFor s.book.purchases.values i).length) := by
  obtain ⟨g, hg, hbook, -⟩ := h.invariant (P := fun _ g => g.Reconciles)
    ⟨Book.reconciles_blank, fun hne => absurd rfl hne⟩ fun hg hs => hs.reconciles hg
  rw [← hbook]
  refine ⟨hg.book, fun hsize i x hx => ?_⟩
  have hle : (madeFor g.book.purchases.values i).length ≤ g.book.purchases.size := by
    refine (List.length_filter_le ..).trans (Nat.le_of_eq ?_)
    simp [Directory.values, Directory.size]
  rw [hg.book.purchaseCount i x hx]
  exact Nat.min_eq_left (hle.trans hsize)

/-- A sale that is configured, opens and sells thirty tokens. -/
theorem reconciles_of_one_purchase : ∃ es s, Run Forward (.start Sample.early) es s ∧
    s.book.unitsRaised = ⟨30, by decide⟩ ∧ s.book.purchases.size = 1 ∧ s.book.Reconciles := by
  obtain ⟨es, h⟩ := Sample.run_sold Sample.reply
  exact ⟨es, _, h, by rfl, by rfl, (reconciles_of_run h).1⟩

end TokenSale
