import Mathlib.Algebra.BigOperators.Group.List.Basic
import Mathlib.Algebra.Ring.Nat
import TokenSale.Allocation.Commit

/-!
# TokenSale.Proofs.Commit

What a committed plan adds to the sums of the tiers and of its investor.

* `TierLedger.commit_ok`, `commitFills_ok` — the tiers;
* `commitFills_keeps` — what holds of the tiers after fills if every commit keeps it;
* `CapTracker.commitSpend_cases`, `commitSpend_ok_iff` — the investor;
* `commitPlan_ok` — both together.
-/

namespace TokenSale

/-! ## tiers -/

/-- A tier that sells had the tokens left, and counts them as sold. -/
theorem Tier.sell?_ok {t t' : Tier} {tokens : Tokens} {discount : Bool}
    (h : t.sell? tokens discount = some t') :
    tokens ≤ t.remainingIn discount ∧ t'.spec = t.spec ∧
      t'.totalSold.val = t.totalSold.val + tokens.val ∧
      t'.discountSold.val = t.discountSold.val + (if discount then tokens.val else 0) := by
  cases discount with
  | false =>
      simp only [sell?] at h
      split at h
      · next hle => cases h; exact ⟨hle, rfl, rfl, rfl⟩
      · contradiction
  | true =>
      simp only [sell?] at h
      split at h
      · next hle => cases h; exact ⟨hle, rfl, rfl, rfl⟩
      · contradiction

/-- A commit sells from one tier and leaves the others. -/
theorem TierLedger.commit_ok {l l' : TierLedger} {index : Nat} {tokens : Tokens} {discount : Bool}
    (h : l.commit index tokens discount = .ok l') :
    ∃ t t', l.tiers[index]? = some t ∧ t.sell? tokens discount = some t' ∧
      l' = ⟨l.tiers.set index t'⟩ := by
  unfold commit at h
  split at h
  · contradiction
  next t ht =>
  split at h
  · contradiction
  next t' ht' =>
  simp only [Except.ok.injEq] at h
  exact ⟨t, t', ht, ht', h.symm⟩

/-- The tokens that fills draw from a tier. -/
def soldOf (fills : List Fill) (index : Nat) : Nat :=
  ((fills.filter fun f => f.tierIndex = index).map fun f => f.tokens.val).sum

/-- The tokens that fills draw from the discounted part of a tier. -/
def discountSoldOf (fills : List Fill) (index : Nat) : Nat :=
  soldOf (fills.filter Fill.isDiscount) index

@[simp] theorem soldOf_nil (index : Nat) : soldOf [] index = 0 := rfl

theorem soldOf_cons (f : Fill) (fs : List Fill) (index : Nat) :
    soldOf (f :: fs) index =
      (if f.tierIndex = index then f.tokens.val else 0) + soldOf fs index := by
  unfold soldOf
  by_cases h : f.tierIndex = index <;> simp [h]

theorem soldOf_append (fs gs : List Fill) (index : Nat) :
    soldOf (fs ++ gs) index = soldOf fs index + soldOf gs index := by
  simp [soldOf]

/-- The order of fills does not matter to what was sold. -/
theorem soldOf_perm {fs gs : List Fill} (h : fs.Perm gs) (index : Nat) :
    soldOf fs index = soldOf gs index :=
  ((h.filter _).map _).sum_eq

@[simp] theorem discountSoldOf_nil (index : Nat) : discountSoldOf [] index = 0 := rfl

theorem discountSoldOf_cons (f : Fill) (fs : List Fill) (index : Nat) :
    discountSoldOf (f :: fs) index =
      (if f.tierIndex = index ∧ f.isDiscount = true then f.tokens.val else 0) +
        discountSoldOf fs index := by
  unfold discountSoldOf
  cases h : f.isDiscount <;> simp [h, soldOf_cons]

theorem discountSoldOf_append (fs gs : List Fill) (index : Nat) :
    discountSoldOf (fs ++ gs) index = discountSoldOf fs index + discountSoldOf gs index := by
  simp [discountSoldOf, soldOf_append]

theorem discountSoldOf_perm {fs gs : List Fill} (h : fs.Perm gs) (index : Nat) :
    discountSoldOf fs index = discountSoldOf gs index :=
  soldOf_perm (h.filter _) index

/-- One tier before and after fills were committed. -/
structure Tier.Sold (fills : List Fill) (index : Nat) (t t' : Tier) : Prop where
  spec : t'.spec = t.spec
  totalSold : t'.totalSold.val = t.totalSold.val + soldOf fills index
  discountSold : t'.discountSold.val = t.discountSold.val + discountSoldOf fills index

/-- The tiers before and after fills were committed. -/
structure TierLedger.Sold (fills : List Fill) (l l' : TierLedger) : Prop where
  size : l'.tiers.length = l.tiers.length
  inRange : ∀ f ∈ fills, f.tierIndex < l.tiers.length
  tier : ∀ i t', l'.tiers[i]? = some t' →
    ∃ t : Tier, l.tiers[i]? = some t ∧ t.Sold fills i t'

/-- Selling does not alter the terms of a tier. -/
theorem TierLedger.Sold.specs {fills : List Fill} {l l' : TierLedger} (h : l.Sold fills l') :
    l'.specs = l.specs := by
  unfold TierLedger.specs
  refine List.ext_getElem (by simp [h.size]) fun i hi hi' => ?_
  rw [List.length_map] at hi hi'
  obtain ⟨t, ht, hsold⟩ := h.tier i l'.tiers[i] (List.getElem?_eq_getElem hi)
  rw [List.getElem?_eq_getElem hi', Option.some.injEq] at ht
  simp only [List.getElem_map, ht]
  exact hsold.spec

theorem TierLedger.sold_of_commit {l l' : TierLedger} {f : Fill}
    (h : l.commit f.tierIndex f.tokens f.isDiscount = .ok l') : l.Sold [f] l' := by
  obtain ⟨t, t', ht, hsell, rfl⟩ := commit_ok h
  obtain ⟨-, hspec, htotal, hdiscount⟩ := Tier.sell?_ok hsell
  have hrange : f.tierIndex < l.tiers.length := (List.getElem?_eq_some_iff.1 ht).1
  refine ⟨List.length_set, by simpa using hrange, fun i u hu => ?_⟩
  by_cases hi : f.tierIndex = i
  · subst hi
    rw [List.getElem?_set_self hrange, Option.some.injEq] at hu
    subst hu
    refine ⟨t, ht, hspec, ?_, ?_⟩
    · simpa [soldOf_cons] using htotal
    · simpa [discountSoldOf_cons] using hdiscount
  · rw [List.getElem?_set_ne hi] at hu
    exact ⟨u, hu, rfl, by simp [soldOf_cons, hi], by simp [discountSoldOf_cons, hi]⟩

theorem TierLedger.Sold.append {l l' l'' : TierLedger} {fs gs : List Fill} (h : l.Sold fs l')
    (h' : l'.Sold gs l'') : l.Sold (fs ++ gs) l'' := by
  refine ⟨h'.size.trans h.size, fun f hf => ?_, fun i t'' ht'' => ?_⟩
  · cases List.mem_append.1 hf with
    | inl hf => exact h.inRange f hf
    | inr hf => exact h.size ▸ h'.inRange f hf
  · obtain ⟨t', ht', hsold'⟩ := h'.tier i t'' ht''
    obtain ⟨t, ht, hsold⟩ := h.tier i t' ht'
    refine ⟨t, ht, hsold'.spec.trans hsold.spec, ?_, ?_⟩
    · rw [hsold'.totalSold, hsold.totalSold, soldOf_append, Nat.add_assoc]
    · rw [hsold'.discountSold, hsold.discountSold, discountSoldOf_append, Nat.add_assoc]

theorem TierLedger.Sold.refl (l : TierLedger) : l.Sold [] l :=
  ⟨rfl, by simp, fun _ t ht => ⟨t, ht, rfl, rfl, rfl⟩⟩

/-- Fills are committed one after the other. -/
theorem commitFills_cons_ok_iff {f : Fill} {fs : List Fill} {l l' : TierLedger} :
    commitFills l (f :: fs) = .ok l' ↔
      ∃ l₁, l.commit f.tierIndex f.tokens f.isDiscount = .ok l₁ ∧ commitFills l₁ fs = .ok l' := by
  rw [commitFills, List.foldlM_cons]
  cases l.commit f.tierIndex f.tokens f.isDiscount with
  | error e => simp [bind, Except.bind]
  | ok l₁ => simp [bind, Except.bind, commitFills]

/-- What every commit keeps is kept by fills, however many they are. -/
theorem commitFills_keeps {P : TierLedger → Prop}
    (step : ∀ {l l' index tokens discount}, P l → l.commit index tokens discount = .ok l' → P l')
    {fills : List Fill} {l l' : TierLedger} (hl : P l) (h : commitFills l fills = .ok l') :
    P l' := by
  induction fills generalizing l with
  | nil =>
      cases h
      exact hl
  | cons f fs ih =>
      obtain ⟨l₁, h₁, hrest⟩ := commitFills_cons_ok_iff.1 h
      exact ih (step hl h₁) hrest

/-- Every tier gains what the fills draw from it. -/
theorem commitFills_ok {fills : List Fill} {l l' : TierLedger} (h : commitFills l fills = .ok l') :
    l.Sold fills l' := by
  induction fills generalizing l with
  | nil =>
      cases h
      exact .refl _
  | cons f fs ih =>
      obtain ⟨l₁, h₁, hrest⟩ := commitFills_cons_ok_iff.1 h
      exact (TierLedger.sold_of_commit h₁).append (ih hrest)

/-! ## investors -/

namespace CapTracker

variable {c c' : CapTracker} {investor : InvestorId} {units : Units}
  {investorClass : InvestorClass} {tokens : Tokens}

/-- The sums of the investor stay in the range of amounts, and within the limit
if there is one. -/
structure CanTake (c : CapTracker) (investor : InvestorId) (units : Units)
    (investorClass : InvestorClass) (tokens : Tokens) : Prop where
  invested_lt : (c.currentSpend investor).val + units.val < Quantity.limit
  bought_lt : (c.tokensBought investor).val + tokens.val < Quantity.limit
  limit : investorClass = .nonAccredited →
    (c.currentSpend investor).val + units.val ≤ (c.effectiveLimit investor).val

/-- The sums of an investor after a purchase. -/
structure Adds (c : CapTracker) (investor : InvestorId) (units : Units)
    (investorClass : InvestorClass) (tokens : Tokens) (state : CapState) : Prop where
  investorClass : state.investorClass = investorClass
  investedUnits : state.investedUnits.val = (c.currentSpend investor).val + units.val
  tokensBought : state.tokensBought.val = (c.tokensBought investor).val + tokens.val
  purchaseCount : state.purchaseCount = min (c.purchaseCount investor + 1) countLimit

/-- A purchase overflows a sum of its investor, or passes their limit, or is
added to their sums and to nothing else. -/
theorem commitSpend_cases (c : CapTracker) (investor : InvestorId) (units : Units)
    (investorClass : InvestorClass) (tokens : Tokens) :
    (c.commitSpend investor units investorClass tokens = .error (.overflow investor) ∧
      ¬ c.CanTake investor units investorClass tokens) ∨
    (c.commitSpend investor units investorClass tokens =
        .error (.capExceeded investor (c.effectiveLimit investor) (c.currentSpend investor) units) ∧
      investorClass = .nonAccredited ∧
      (c.effectiveLimit investor).val < (c.currentSpend investor).val + units.val) ∨
    ∃ state, c.commitSpend investor units investorClass tokens =
        .ok { c with investors := c.investors.insert investor state } ∧
      c.CanTake investor units investorClass tokens ∧
      c.Adds investor units investorClass tokens state := by
  unfold commitSpend
  simp only
  split
  next hover =>
    rw [Quantity.add?_eq_none_iff] at hover
    exact .inl ⟨rfl, fun h => absurd h.invested_lt (Nat.not_lt.2 hover)⟩
  next total htotal =>
  rw [Quantity.add?_eq_some_iff] at htotal
  split
  next hlimit =>
    obtain ⟨hclass, hlt⟩ := hlimit
    rw [Quantity.lt_iff, htotal] at hlt
    exact .inr (.inl ⟨rfl, hclass, hlt⟩)
  next hlimit =>
  split
  next hover =>
    rw [Quantity.add?_eq_none_iff] at hover
    exact .inl ⟨rfl, fun h => absurd h.bought_lt (Nat.not_lt.2 hover)⟩
  next bought hbought =>
    rw [Quantity.add?_eq_some_iff] at hbought
    refine .inr (.inr ⟨_, rfl, ⟨htotal ▸ total.val_lt, hbought ▸ bought.val_lt, fun hclass => ?_⟩,
      rfl, htotal, hbought, rfl⟩)
    rw [← htotal]
    exact Nat.le_of_not_lt fun hlt => hlimit ⟨hclass, hlt⟩

/-- A spend is recorded for one investor, whose limit it keeps unless accredited. -/
theorem commitSpend_ok (h : c.commitSpend investor units investorClass tokens = .ok c') :
    ∃ state : CapState, c' = { c with investors := c.investors.insert investor state } ∧
      c.Adds investor units investorClass tokens state := by
  obtain ⟨herror, -⟩ | ⟨herror, -⟩ | ⟨state, hok, -, hadds⟩ :=
    c.commitSpend_cases investor units investorClass tokens
  · rw [h] at herror
    contradiction
  · rw [h] at herror
    contradiction
  · rw [h, Except.ok.injEq] at hok
    exact ⟨state, hok, hadds⟩

/-- A purchase is recorded just if the sums of its investor can take it. -/
theorem commitSpend_ok_iff : (∃ c', c.commitSpend investor units investorClass tokens = .ok c') ↔
    c.CanTake investor units investorClass tokens := by
  obtain ⟨herror, hnot⟩ | ⟨herror, hclass, hover⟩ | ⟨state, hok, htakes, -⟩ :=
    c.commitSpend_cases investor units investorClass tokens
  · exact iff_of_false (by simp [herror]) hnot
  · exact iff_of_false (by simp [herror]) fun h => absurd (h.limit hclass) (Nat.not_le.2 hover)
  · exact iff_of_true ⟨_, hok⟩ htakes

/-- A purchase leaves a non-accredited investor within their limit. -/
theorem commitSpend_le (h : c.commitSpend investor units .nonAccredited tokens = .ok c') :
    (c.currentSpend investor).val + units.val ≤ (c.effectiveLimit investor).val :=
  (commitSpend_ok_iff.1 ⟨c', h⟩).limit rfl

/-- A purchase within the limit is only refused because a sum overflows. -/
theorem commitSpend_error_of_le {e : CapError} (hlimit : investorClass = .nonAccredited →
      (c.currentSpend investor).val + units.val ≤ (c.effectiveLimit investor).val)
    (h : c.commitSpend investor units investorClass tokens = .error e) : e = .overflow investor := by
  obtain ⟨herror, -⟩ | ⟨-, hclass, hover⟩ | ⟨state, hok, -⟩ :=
    c.commitSpend_cases investor units investorClass tokens
  · rw [h, Except.error.injEq] at herror
    exact herror
  · exact absurd (hlimit hclass) (Nat.not_le.2 hover)
  · rw [h] at hok
    contradiction

end CapTracker

/-- Only the investor's own sums change. -/
theorem CapTracker.state?_insert (c : CapTracker) (i j : InvestorId) (x : CapState) :
    { c with investors := c.investors.insert i x }.state? j =
      if j = i then some x else c.state? j :=
  Directory.get?_insert ..

/-- The running sums after a purchase: those of its investor take it up, the
others stay. -/
theorem CapTracker.sums_of_commitSpend {c c' : CapTracker} {investor : InvestorId} {units : Units}
    {investorClass : InvestorClass} {tokens : Tokens}
    (h : c.commitSpend investor units investorClass tokens = .ok c') (i : InvestorId) :
    (c'.currentSpend i).val = (c.currentSpend i).val + (if i = investor then units.val else 0) ∧
      (c'.tokensBought i).val =
        (c.tokensBought i).val + (if i = investor then tokens.val else 0) ∧
      c'.purchaseCount i = if i = investor then
        min (c.purchaseCount i + 1) countLimit else c.purchaseCount i := by
  obtain ⟨x, rfl, -, hinvested, hbought, hcount⟩ := commitSpend_ok h
  unfold currentSpend tokensBought purchaseCount at *
  simp only [state?_insert]
  by_cases hi : i = investor
  · subst hi
    simpa using ⟨hinvested, hbought, hcount⟩
  · simp [hi]

/-- A purchase takes what it consumes out of the room that a limit leaves. -/
theorem CapTracker.limits_of_commitSpend {c c' : CapTracker} {investor : InvestorId}
    {units : Units} {investorClass : InvestorClass} {tokens : Tokens}
    (h : c.commitSpend investor units investorClass tokens = .ok c') :
    c'.effectiveLimit = c.effectiveLimit ∧
      (c'.currentSpend investor).val = (c.currentSpend investor).val + units.val := by
  have hsums := (sums_of_commitSpend h investor).1
  obtain ⟨x, rfl, -⟩ := commitSpend_ok h
  exact ⟨rfl, by rwa [if_pos rfl] at hsums⟩

/-! ## plans -/

/-- A plan is committed by its fills and its spend. -/
theorem commitFills_of_commitPlan {plan : AllocationPlan} {tiers tiers' : TierLedger}
    {caps caps' : CapTracker} (h : commitPlan plan tiers caps = .ok (tiers', caps')) :
    commitFills tiers plan.fills = .ok tiers' ∧
      caps.commitSpend plan.investor plan.result.unitsConsumed plan.investorClass
        plan.result.tokensAllocated = .ok caps' := by
  unfold commitPlan at h
  split at h
  · contradiction
  next l hl =>
  split at h
  · contradiction
  · contradiction
  next c hc =>
  simp only [Except.ok.injEq, Prod.mk.injEq] at h
  exact ⟨h.1 ▸ hl, h.2 ▸ hc⟩

/-- A committed plan has sold its fills and recorded its spend. -/
theorem commitPlan_ok {plan : AllocationPlan} {tiers tiers' : TierLedger} {caps caps' : CapTracker}
    (h : commitPlan plan tiers caps = .ok (tiers', caps')) :
    tiers.Sold plan.fills tiers' ∧
      caps.commitSpend plan.investor plan.result.unitsConsumed plan.investorClass
        plan.result.tokensAllocated = .ok caps' :=
  (commitFills_of_commitPlan h).imp_left commitFills_ok

end TokenSale
