import TokenSale.Proofs.Totals

/-!
# TokenSale.Proofs.PurchaseStream

Any number of purchases one after the other, by anybody, under policies and
classes that may change from one to the next.  Three things are kept apart: the
tiers, the running sums of the investors, and the plans that callers were
given; they always agree.

* `Stock.execute` — one order, which leaves everything as it was if it is refused;
* `Stock.Accounts` — tiers and running sums are those of the plans given out;
* `Accounts.execute`, `Accounts.after` — one order keeps that, and so do all;
* `stream_accounts` — from tiers just opened on.
-/

namespace TokenSale

/-! ## orders -/

/-- A purchase with the policy it is made under. -/
structure Order where
  policy : AllocationPolicy
  input : AllocationInput

/-- Tiers and running sums. -/
structure Stock where
  tiers : TierLedger
  caps : CapTracker

namespace Stock

/-- The plan of an order or why there is none, and what is left behind. -/
def execute (s : Stock) (o : Order) : Except AllocationError AllocationPlan × Stock :=
  match TokenSale.execute o.policy o.input s.tiers s.caps with
  | .ok (plan, tiers, caps) => (.ok plan, ⟨tiers, caps⟩)
  | .error e => (.error e, s)

/-- What is left behind by orders one after the other. -/
def after (s : Stock) (os : List Order) : Stock := os.foldl (fun s o => (s.execute o).2) s

/-- The plans that orders were given, in order. -/
def plans (s : Stock) : List Order → List AllocationPlan
  | [] => []
  | o :: os => (s.execute o).1.toOption.toList ++ (s.execute o).2.plans os

end Stock

/-! ## sums over plans -/

/-- The plans of an investor. -/
def plansFor (ps : List AllocationPlan) (i : InvestorId) : List AllocationPlan :=
  ps.filter fun p => p.investor = i

/-- The tokens that plans allocate. -/
def tokensPlanned (ps : List AllocationPlan) : Nat :=
  (ps.map fun p => p.result.tokensAllocated.val).sum

/-- The units that plans cost. -/
def unitsPlanned (ps : List AllocationPlan) : Nat :=
  (ps.map fun p => p.result.unitsConsumed.val).sum

theorem tokensPlanned_append (ps qs : List AllocationPlan) :
    tokensPlanned (ps ++ qs) = tokensPlanned ps + tokensPlanned qs := by
  simp [tokensPlanned]

theorem plansFor_append_self (ps : List AllocationPlan) (p : AllocationPlan) :
    plansFor (ps ++ [p]) p.investor = plansFor ps p.investor ++ [p] := by
  simp [plansFor]

theorem plansFor_append_ne {p : AllocationPlan} {i : InvestorId} (h : i ≠ p.investor)
    (ps : List AllocationPlan) : plansFor (ps ++ [p]) i = plansFor ps i := by
  simp [plansFor, Ne.symm h]

/-- A plan adds to the sum of its investor and to no other. -/
theorem sum_plansFor_append (f : AllocationPlan → Nat) (ps : List AllocationPlan)
    (p : AllocationPlan) (i : InvestorId) :
    ((plansFor (ps ++ [p]) i).map f).sum =
      ((plansFor ps i).map f).sum + if i = p.investor then f p else 0 := by
  by_cases hi : i = p.investor
  · subst hi
    simp [plansFor_append_self]
  · simp [plansFor_append_ne hi, hi]

/-! ## one order -/

namespace Stock

variable {s s' s'' : Stock} {o : Order} {p : AllocationPlan} {ps : List AllocationPlan}

/-- An order that is refused leaves everything as it was. -/
theorem execute_error {e : AllocationError} (h : (s.execute o).1 = .error e) :
    (s.execute o).2 = s := by
  unfold execute at h ⊢
  split at h
  · contradiction
  · rfl

/-- An order that is filled commits its plan. -/
theorem execute_ok (h : s.execute o = (.ok p, s')) :
    allocate o.policy o.input s.tiers s.caps = .ok p ∧
      commitPlan p s.tiers s.caps = .ok (s'.tiers, s'.caps) := by
  unfold execute TokenSale.execute at h
  cases ha : allocate o.policy o.input s.tiers s.caps with
  | error e => simp [ha] at h
  | ok plan =>
      simp only [ha] at h
      cases hc : commitPlan plan s.tiers s.caps with
      | error e => simp [hc, Except.map] at h
      | ok state =>
          simp only [hc, Except.map, Prod.mk.injEq, Except.ok.injEq] at h
          obtain ⟨rfl, rfl⟩ := h
          exact ⟨rfl, hc⟩

/-- A plan names the investor and the class of its order. -/
theorem execute_investor (h : s.execute o = (.ok p, s')) :
    p.investor = o.input.investor ∧ p.investorClass = o.input.investorClass := by
  obtain ⟨⟨hinvestor, hclass, -⟩, -⟩ := allocate_ok (execute_ok h).1
  exact ⟨hinvestor, hclass⟩

/-- Tiers and running sums are those of the plans given out. -/
structure Accounts (ps : List AllocationPlan) (s : Stock) : Prop where
  built : s.tiers.Built
  /-- What the tiers have sold is what the plans allocate. -/
  totalSold : s.tiers.totalSold.val = tokensPlanned ps
  /-- So is what all investors have bought. -/
  bought : (s.caps.investors.sumOf fun _ x => x.tokensBought.val) = tokensPlanned ps
  /-- The sums of an investor are those of their plans. -/
  investedUnits : ∀ i, (s.caps.currentSpend i).val = unitsPlanned (plansFor ps i)
  tokensBought : ∀ i, (s.caps.tokensBought i).val = tokensPlanned (plansFor ps i)
  purchaseCount : ∀ i,
    s.caps.purchaseCount i = min (plansFor ps i).length CapTracker.countLimit
  /-- Whoever was last seen as non-accredited is within their limit. -/
  capped : ∀ i p, (plansFor ps i).getLast? = some p → p.investorClass = .nonAccredited →
    (s.caps.currentSpend i).val ≤ (s.caps.effectiveLimit i).val

/-- What no order takes back: tiers and limits stay, and no count becomes less. -/
structure Grows (s s' : Stock) : Prop where
  size : s'.tiers.tiers.length = s.tiers.tiers.length
  tier : ∀ (i : Nat) (t t' : Tier), s.tiers.tiers[i]? = some t → s'.tiers.tiers[i]? = some t' →
    t'.spec = t.spec ∧ t.totalSold.val ≤ t'.totalSold.val ∧
      t.discountSold.val ≤ t'.discountSold.val
  limit : s'.caps.nonAccreditedLimit = s.caps.nonAccreditedLimit
  overrides : s'.caps.overrides = s.caps.overrides
  investedUnits : ∀ i, (s.caps.currentSpend i).val ≤ (s'.caps.currentSpend i).val
  tokensBought : ∀ i, (s.caps.tokensBought i).val ≤ (s'.caps.tokensBought i).val
  purchaseCount : ∀ i, s.caps.purchaseCount i ≤ s'.caps.purchaseCount i

theorem Grows.refl (s : Stock) : s.Grows s where
  size := rfl
  tier i t t' ht ht' := by
    rw [ht, Option.some.injEq] at ht'
    exact ht' ▸ ⟨rfl, Nat.le_refl _, Nat.le_refl _⟩
  limit := rfl
  overrides := rfl
  investedUnits _ := Nat.le_refl _
  tokensBought _ := Nat.le_refl _
  purchaseCount _ := Nat.le_refl _

theorem Grows.trans (h : s.Grows s') (h' : s'.Grows s'') : s.Grows s'' where
  size := h'.size.trans h.size
  tier i t t'' ht ht'' := by
    have hi : i < s'.tiers.tiers.length := h'.size ▸ (List.getElem?_eq_some_iff.1 ht'').1
    have ht' : s'.tiers.tiers[i]? = some s'.tiers.tiers[i] := List.getElem?_eq_getElem hi
    obtain ⟨hspec, htotal, hdiscount⟩ := h.tier i t _ ht ht'
    obtain ⟨hspec', htotal', hdiscount'⟩ := h'.tier i _ t'' ht' ht''
    exact ⟨hspec'.trans hspec, htotal.trans htotal', hdiscount.trans hdiscount'⟩
  limit := h'.limit.trans h.limit
  overrides := h'.overrides.trans h.overrides
  investedUnits i := (h.investedUnits i).trans (h'.investedUnits i)
  tokensBought i := (h.tokensBought i).trans (h'.tokensBought i)
  purchaseCount i := (h.purchaseCount i).trans (h'.purchaseCount i)

/-- The running sums after a plan: those of its investor take it up, the others
stay. -/
theorem caps_execute (h : s.execute o = (.ok p, s')) (i : InvestorId) :
    (s'.caps.currentSpend i).val = (s.caps.currentSpend i).val +
        (if i = p.investor then p.result.unitsConsumed.val else 0) ∧
      (s'.caps.tokensBought i).val = (s.caps.tokensBought i).val +
        (if i = p.investor then p.result.tokensAllocated.val else 0) ∧
      s'.caps.purchaseCount i = (if i = p.investor then
        min (s.caps.purchaseCount i + 1) CapTracker.countLimit else s.caps.purchaseCount i) :=
  CapTracker.sums_of_commitSpend (commitPlan_ok (execute_ok h).2).2 i

/-- One order takes nothing back. -/
theorem Accounts.grows (hs : s.Accounts ps) (h : s.execute o = (.ok p, s')) : s.Grows s' := by
  obtain ⟨hsold, hspend⟩ := commitPlan_ok (execute_ok h).2
  obtain ⟨x, hcaps, -⟩ := CapTracker.commitSpend_ok hspend
  have hsums := caps_execute h
  refine ⟨hsold.size, fun i t t' ht ht' => ?_, by rw [hcaps], by rw [hcaps], fun i => ?_,
    fun i => ?_, fun i => ?_⟩
  · obtain ⟨t₀, ht₀, htier⟩ := hsold.tier i t' ht'
    rw [ht, Option.some.injEq] at ht₀
    subst ht₀
    have htotal := htier.totalSold
    have hdiscount := htier.discountSold
    exact ⟨htier.spec, by omega, by omega⟩
  · have hspent := (hsums i).1
    omega
  · have hbought := (hsums i).2.1
    omega
  · rw [(hsums i).2.2]
    have hcount := hs.purchaseCount i
    split
    · generalize CapTracker.countLimit = limit at hcount ⊢
      omega
    · exact Nat.le_refl _

/-- **An order that is filled adds its plan to all accounts.** -/
theorem Accounts.execute (hs : s.Accounts ps) (h : s.execute o = (.ok p, s')) :
    s'.Accounts (ps ++ [p]) := by
  obtain ⟨hallocate, hcommit⟩ := execute_ok h
  obtain ⟨-, hspend⟩ := commitPlan_ok hcommit
  obtain ⟨x, hcaps, -, -, hbought, -⟩ := CapTracker.commitSpend_ok hspend
  have htokens := (allocate_adds hallocate).tokens
  have hsums := caps_execute h
  have hfills : commitFills s.tiers p.fills = .ok s'.tiers := (commitFills_of_commitPlan hcommit).1
  have hbuilt : s'.tiers.Built := hs.built.commitFills hfills
  -- the totals of the tiers and of the tracker, then what is kept of each investor
  refine ⟨hbuilt, ?_, ?_, fun i => ?_, fun i => ?_, fun i => ?_, fun i q hq hclass => ?_⟩
  · have hbefore := hs.totalSold
    rw [hs.built.val_totalSold] at hbefore
    rw [hbuilt.val_totalSold, commitFills_sold hfills, hbefore, tokensPlanned_append]
    simp [tokensPlanned, htokens]
  · have hinsert := s.caps.investors.sumOf_insert p.investor x fun _ y => y.tokensBought.val
    have hbefore : (s.caps.investors.get? p.investor).elim 0 (fun y => y.tokensBought.val) =
        (s.caps.tokensBought p.investor).val := by
      unfold CapTracker.tokensBought CapTracker.state?
      cases s.caps.investors.get? p.investor <;> rfl
    rw [hbefore, hs.bought] at hinsert
    have hplan : tokensPlanned [p] = p.result.tokensAllocated.val := by simp [tokensPlanned]
    simp only [hcaps, tokensPlanned_append]
    omega
  · rw [(hsums i).1, hs.investedUnits i]
    exact (sum_plansFor_append (fun p => p.result.unitsConsumed.val) ps p i).symm
  · rw [(hsums i).2.1, hs.tokensBought i]
    exact (sum_plansFor_append (fun p => p.result.tokensAllocated.val) ps p i).symm
  · rw [(hsums i).2.2, hs.purchaseCount i]
    by_cases hi : i = p.investor
    · subst hi
      rw [if_pos rfl, plansFor_append_self, List.length_append, List.length_singleton]
      generalize CapTracker.countLimit = limit
      omega
    · rw [if_neg hi, plansFor_append_ne hi]
  · have hlimit : s'.caps.effectiveLimit i = s.caps.effectiveLimit i := by rw [hcaps]; rfl
    by_cases hi : i = p.investor
    · subst hi
      rw [plansFor_append_self, List.getLast?_concat, Option.some.injEq] at hq
      subst hq
      rw [hclass] at hspend
      rw [hlimit, (hsums _).1, if_pos rfl]
      exact CapTracker.commitSpend_le hspend
    · rw [plansFor_append_ne hi] at hq
      rw [hlimit, (hsums i).1, if_neg hi, Nat.add_zero]
      exact hs.capped i q hq hclass

/-! ## all orders -/

theorem after_append (s : Stock) (os os' : List Order) :
    s.after (os ++ os') = (s.after os).after os' :=
  List.foldl_append ..

/-- Orders one after the other keep the accounts and take nothing back. -/
theorem Accounts.after (hs : s.Accounts ps) (os : List Order) :
    (s.after os).Accounts (ps ++ s.plans os) ∧ s.Grows (s.after os) := by
  induction os generalizing s ps with
  | nil => exact ⟨by simpa [plans, Stock.after] using hs, .refl s⟩
  | cons o os ih =>
      have hafter : s.after (o :: os) = (s.execute o).2.after os := rfl
      have hplans : s.plans (o :: os) =
        (s.execute o).1.toOption.toList ++ (s.execute o).2.plans os := rfl
      rw [hafter, hplans]
      cases hx : (s.execute o).1 with
      | error e =>
          rw [execute_error hx]
          exact ih hs
      | ok p =>
          have h : s.execute o = (.ok p, (s.execute o).2) := Prod.ext hx rfl
          obtain ⟨haccounts, hgrows⟩ := ih (hs.execute h)
          refine ⟨?_, (hs.grows h).trans hgrows⟩
          simpa [Except.toOption] using haccounts

/-- Tiers just opened and investors without a purchase. -/
theorem accounts_nil {specs : List TierSpec} {tiers : TierLedger}
    (h : TierLedger.ofSpecs specs = .ok tiers) (limit : Units)
    (overrides : Directory InvestorId Units) :
    Accounts [] ⟨tiers, ⟨limit, overrides, .empty⟩⟩ := by
  have hbuilt : tiers.Built := .ofSpecs h
  refine ⟨hbuilt, ?_, rfl, fun _ => rfl, fun _ => rfl, fun _ => ?_, fun _ _ hlast => ?_⟩
  · obtain ⟨-, rfl⟩ := TierLedger.ofSpecs_ok h
    rw [hbuilt.val_totalSold]
    simp [TierLedger.sold, tokensPlanned, Tier.fresh, Function.comp_def]
  · simp [CapTracker.purchaseCount, CapTracker.state?, plansFor]
  · simp [plansFor] at hlast

end Stock

/-- **A stream of purchases keeps its accounts.**  After any orders, from tiers
just opened and investors without a purchase: tiers and running sums are those
of the plans given out, whoever was last seen as non-accredited is within their
limit, and no tier has sold more than it has; further orders take nothing back,
and one that is refused leaves everything as it was. -/
theorem stream_accounts {specs : List TierSpec} {tiers : TierLedger}
    (h : TierLedger.ofSpecs specs = .ok tiers) (limit : Units)
    (overrides : Directory InvestorId Units) (orders : List Order) :
    let start : Stock := ⟨tiers, ⟨limit, overrides, .empty⟩⟩
    let s := start.after orders
    s.Accounts (start.plans orders) ∧ (∀ t ∈ s.tiers.tiers, t.Within) ∧
      (∀ later, s.Grows (start.after (orders ++ later))) ∧
      ∀ o : Order,
        match s.execute o with
        | (.error _, s') => s' = s
        | (.ok p, _) => p.investor = o.input.investor ∧
          p.investorClass = o.input.investorClass := by
  intro start s
  have hs : s.Accounts (start.plans orders) :=
    ((Stock.accounts_nil h limit overrides).after orders).1
  refine ⟨hs, hs.built.within, fun later => ?_, fun o => ?_⟩
  · rw [Stock.after_append]
    exact (hs.after later).2
  · split
    next e s' hx =>
      have hsame := Stock.execute_error (congrArg Prod.fst hx)
      rwa [hx] at hsame
    next p s' hx => exact Stock.execute_investor hx

/-- An order of Alice, seen as of a class. -/
def Sample.order (c : InvestorClass) : Order where
  policy := ⟨.one, some (.ofText "USD")⟩
  input := { Sample.payment with investorClass := c }

/-- With a limit of twelve units she buys until they are spent, is refused, and
buys on once she is accredited. -/
theorem stream_accounts_class_change :
    let start : Stock := ⟨Sample.tiers, .withLimit ⟨12, by decide⟩⟩
    let orders := [.nonAccredited, .nonAccredited, .accredited].map Sample.order
    TierLedger.ofSpecs Sample.tiers.specs = .ok Sample.tiers ∧
      (start.plans orders).map (fun p => p.result.tokensAllocated.val) = [8, 7] ∧
      (start.after orders).Accounts (start.plans orders) :=
  have hspecs : TierLedger.ofSpecs Sample.tiers.specs = .ok Sample.tiers := rfl
  ⟨hspecs, rfl, (stream_accounts hspecs _ .empty _).1⟩

end TokenSale
