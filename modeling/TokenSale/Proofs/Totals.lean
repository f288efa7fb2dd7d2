import Mathlib.Algebra.BigOperators.Group.Finset.Piecewise
import Mathlib.Algebra.Order.BigOperators.Group.List
import TokenSale.Proofs.GreedyWalk
import TokenSale.Proofs.Records

/-!
# TokenSale.Proofs.Totals

Sums over all that is filed, over all tiers, and over the fills of a plan.
Totals in reports are clamped to the range of amounts; those of tiers in use
never are, because all that they offer fits.

* `Directory.sumOf_insert`, `sumOf_eq_add` — a sum after filing one more entry,
  and two sums that agree entry by entry;
* `TierLedger.Built.within` — no tier sells more than it has;
* `TierLedger.Built.val_totalSold`, `val_totalRemaining` — totals are exact;
* `FallsShort` — what keeps the sums of fills from becoming a plan;
* `commitFills_sold`, `allocate_adds` — what a plan adds to them.
-/

namespace TokenSale

/-! ## sums over a directory -/

namespace Directory

variable {κ α β : Type} [DecidableEq κ] [OrderedKey κ]

/-- The sum of a measure over all entries. -/
def sumOf (d : Directory κ α) (f : κ → α → Nat) : Nat := (d.entries.map fun p => f p.1 p.2).sum

@[simp] theorem sumOf_empty (f : κ → α → Nat) : (empty : Directory κ α).sumOf f = 0 := rfl

/-- A sum after an entry was placed: the new one counts, the old one does not. -/
theorem sum_place {k : κ} {a : α} {l : List (κ × α)} {g : κ × α → Nat}
    (hl : l.Pairwise fun p q => OrderedKey.before p.1 q.1 = true) :
    ((place k a l).map g).sum + (find k l).elim 0 (fun b => g (k, b)) =
      (l.map g).sum + g (k, a) := by
  induction l with
  | nil => simp [place, find]
  | cons p l ih =>
      obtain ⟨k', b⟩ := p
      obtain ⟨hfirst, hl⟩ := List.pairwise_cons.1 hl
      by_cases hk : k = k'
      · subst hk
        simp only [place, find, if_true, List.map_cons, List.sum_cons, Option.elim_some]
        omega
      · by_cases hbefore : OrderedKey.before k k' = true
        · -- `k` comes before every key, so nothing is filed under it
          have hnone : find k l = none :=
            find_eq_none_of_before fun p hp => OrderedKey.before_trans hbefore (hfirst p hp)
          simp only [place, find, if_neg hk, hbefore, if_true, hnone, List.map_cons, List.sum_cons,
            Option.elim_none]
          omega
        · have hsum := ih hl
          simp only [place, find, if_neg hk, hbefore, List.map_cons, List.sum_cons]
          simp only [Bool.false_eq_true, if_false, List.map_cons, List.sum_cons]
          omega

/-- Filing an entry adds its measure in place of that of the entry before. -/
theorem sumOf_insert (d : Directory κ α) (k : κ) (a : α) (f : κ → α → Nat) :
    (d.insert k a).sumOf f + (d.get? k).elim 0 (f k) = d.sumOf f + f k a :=
  sum_place d.ordered

/-- A sum over entries is one over keys. -/
theorem sumOf_eq_sum (d : Directory κ α) (f : κ → α → Nat) {s : Finset κ}
    (hs : ∀ k ∈ d.keys, k ∈ s) : d.sumOf f = ∑ k ∈ s, (d.get? k).elim 0 (f k) := by
  have hkeys : d.sumOf f = (d.keys.map fun k => (d.get? k).elim 0 (f k)).sum := by
    rw [sumOf, keys, List.map_map]
    refine congrArg List.sum (List.map_congr_left fun p hp => ?_)
    simp [get?_eq_some_iff.2 hp]
  rw [hkeys, ← List.sum_toFinset _ d.nodup_keys]
  refine Finset.sum_subset (fun k hk => hs k (List.mem_toFinset.1 hk)) fun k _ hk => ?_
  cases hget : d.get? k with
  | none => rfl
  | some a =>
      rw [List.mem_toFinset] at hk
      exact absurd (List.mem_map_of_mem (get?_eq_some_iff.1 hget)) hk

/-- Sums that agree key by key, up to one amount more under one key. -/
theorem sumOf_eq_add {d : Directory κ α} {e : Directory κ β} {f : κ → α → Nat} {g : κ → β → Nat}
    {j : κ} {n : Nat} (h : ∀ k, (d.get? k).elim 0 (f k) =
      (e.get? k).elim 0 (g k) + if k = j then n else 0) : d.sumOf f = e.sumOf g + n := by
  let s : Finset κ := {j} ∪ (d.keys ++ e.keys).toFinset
  rw [d.sumOf_eq_sum f (s := s) (by simp +contextual [s]),
    e.sumOf_eq_sum g (s := s) (by simp +contextual [s]),
    Finset.sum_congr rfl fun k _ => h k, Finset.sum_add_distrib,
    Finset.sum_ite_eq' s j fun _ => n, if_pos (by simp [s])]

/-- Two directories have one sum if under each key they count the same. -/
theorem sumOf_congr {d : Directory κ α} {e : Directory κ β} {f : κ → α → Nat} {g : κ → β → Nat}
    (h : ∀ k, (d.get? k).elim 0 (f k) = (e.get? k).elim 0 (g k)) : d.sumOf f = e.sumOf g := by
  let s : Finset κ := (d.keys ++ e.keys).toFinset
  rw [d.sumOf_eq_sum f (s := s) (by simp +contextual [s]),
    e.sumOf_eq_sum g (s := s) (by simp +contextual [s])]
  exact Finset.sum_congr rfl fun k _ => h k

theorem sumOf_le {d : Directory κ α} {f g : κ → α → Nat}
    (h : ∀ k a, d.get? k = some a → f k a ≤ g k a) : d.sumOf f ≤ d.sumOf g :=
  List.sum_le_sum fun p hp => h p.1 p.2 (get?_eq_some_iff.2 hp)

/-- A sum over the entries of a kind. -/
theorem sum_filter_values (d : Directory κ α) (p : α → Bool) (f : α → Nat) :
    ((d.values.filter p).map f).sum = d.sumOf fun _ a => if p a then f a else 0 := by
  rw [sumOf, values]
  induction d.entries with
  | nil => rfl
  | cons e l ih => cases hp : p e.2 <;> simp [hp, ih]

theorem le_sumOf {d : Directory κ α} {k : κ} {a : α} (h : d.get? k = some a) (f : κ → α → Nat) :
    f k a ≤ d.sumOf f :=
  List.single_le_sum (fun _ _ => Nat.zero_le _) _
    (List.mem_map_of_mem (f := fun p => f p.1 p.2) (get?_eq_some_iff.1 h))

end Directory

/-! ## clamped totals -/

/-- Adding stops at the largest quantity. -/
theorem Quantity.val_addClamped {s : Scale} (a b : Quantity s) :
    (a.addClamped b).val = min (a.val + b.val) (Quantity.limit - 1) := by
  unfold addClamped
  cases h : a.add? b with
  | some c =>
      have hc := c.val_lt
      rw [add?_eq_some_iff] at h
      simp only [Option.getD_some]
      omega
  | none =>
      rw [add?_eq_none_iff] at h
      simp only [Option.getD_none, max]
      omega

theorem Quantity.val_foldl_addClamped {s : Scale} (a : Quantity s) (l : List (Quantity s)) :
    (l.foldl addClamped a).val = min (a.val + (l.map val).sum) (Quantity.limit - 1) := by
  induction l generalizing a with
  | nil =>
      have ha := a.val_lt
      simp only [List.foldl_nil, List.map_nil, List.sum_nil]
      omega
  | cons b l ih =>
      rw [List.foldl_cons, ih, val_addClamped, List.map_cons, List.sum_cons]
      omega

/-- A total that fits is exact. -/
theorem Quantity.val_total {s : Scale} {l : List (Quantity s)}
    (h : (l.map val).sum < Quantity.limit) :
    (l.foldl addClamped .zero).val = (l.map val).sum := by
  rw [val_foldl_addClamped, val_zero]
  omega

/-! ## tiers in use -/

namespace Tier

/-- No more is sold than there is, neither of the tier nor of its discounted part. -/
structure Within (t : Tier) : Prop where
  discountSold_le : t.discountSold.val ≤ t.spec.discountCapacity.val
  discountSold_le_total : t.discountSold.val ≤ t.totalSold.val
  totalSold_le : t.totalSold.val ≤ t.spec.totalCapacity.val

theorem within_fresh (s : TierSpec) : (fresh s).Within :=
  ⟨Nat.zero_le _, Nat.le_refl _, Nat.zero_le _⟩

/-- Selling does not take a tier past its capacities. -/
theorem Within.sell? {t t' : Tier} {tokens : Tokens} {discount : Bool} (h : t.Within)
    (hs : t.sell? tokens discount = some t') : t'.Within := by
  obtain ⟨hle, hspec, htotal, hdiscount⟩ := sell?_ok hs
  have h₁ := h.discountSold_le
  have h₂ := h.discountSold_le_total
  have h₃ := h.totalSold_le
  rw [Quantity.le_iff] at hle
  cases discount with
  | false =>
      simp only [remainingIn, Bool.false_eq_true, if_false, remaining,
        Quantity.val_subClamped] at hle hdiscount
      exact ⟨by rw [hspec]; omega, by omega, by rw [hspec]; omega⟩
  | true =>
      simp only [remainingIn, if_true, remainingDiscount, remaining, Quantity.val_least,
        Quantity.val_subClamped] at hle hdiscount
      exact ⟨by rw [hspec]; omega, by omega, by rw [hspec]; omega⟩

end Tier

namespace TierLedger

/-- The tokens that all tiers offer. -/
def offered (l : TierLedger) : Nat := (l.tiers.map fun t => t.spec.totalCapacity.val).sum

/-- The tokens sold of all tiers. -/
def sold (l : TierLedger) : Nat := (l.tiers.map fun t => t.totalSold.val).sum

/-- What an opened ledger offers can be counted. -/
theorem offered_ofSpecs {specs : List TierSpec} {l : TierLedger} (h : ofSpecs specs = .ok l) :
    l.offered < Quantity.limit := by
  obtain ⟨⟨-, hfit⟩, rfl⟩ := ofSpecs_ok_iff.1 h
  simpa [offered, Function.comp_def, Tier.fresh] using hfit.counted

/-- A sum after one place of a list was set. -/
theorem sum_map_set {α : Type} {f : α → Nat} {l : List α} {i : Nat} {x y : α}
    (h : l[i]? = some x) : ((l.set i y).map f).sum + f x = (l.map f).sum + f y := by
  induction l generalizing i with
  | nil => simp at h
  | cons z l ih =>
      cases i with
      | zero =>
          simp only [List.getElem?_cons_zero, Option.some.injEq] at h
          simp only [List.set_cons_zero, List.map_cons, List.sum_cons, h]
          omega
      | succ i =>
          have hrest := ih (by simpa using h)
          simp only [List.set_cons_succ, List.map_cons, List.sum_cons]
          omega

variable {l l' : TierLedger}

theorem sum_totalSold (l : TierLedger) :
    ((l.tiers.map Tier.totalSold).map Quantity.val).sum = l.sold := by
  simp [sold, Function.comp_def]

theorem sum_totalCapacity (l : TierLedger) :
    ((l.tiers.map fun t => t.spec.totalCapacity).map Quantity.val).sum = l.offered := by
  simp [offered, Function.comp_def]

theorem offered_eq (l : TierLedger) :
    l.offered = (l.specs.map fun s => s.totalCapacity.val).sum := by
  simp [offered, specs, Function.comp_def]

/-- What is offered depends on the terms of the tiers only. -/
theorem offered_eq_of_specs (h : l'.specs = l.specs) : l'.offered = l.offered := by
  rw [offered_eq, offered_eq, h]

/-- A commit adds its tokens to what was sold. -/
theorem sold_commit {index : Nat} {tokens : Tokens} {discount : Bool}
    (h : l.commit index tokens discount = .ok l') : l'.sold = l.sold + tokens.val := by
  obtain ⟨t, t', ht, hsell, rfl⟩ := commit_ok h
  obtain ⟨-, -, htotal, -⟩ := Tier.sell?_ok hsell
  have hsum : (TierLedger.mk (l.tiers.set index t')).sold + t.totalSold.val =
      l.sold + t'.totalSold.val := sum_map_set (f := fun u : Tier => u.totalSold.val) ht
  omega

/-- No tier sells more than it has. -/
def Within (l : TierLedger) : Prop := ∀ t ∈ l.tiers, t.Within

theorem Within.commit {index : Nat} {tokens : Tokens} {discount : Bool} (h : l.Within)
    (hc : l.commit index tokens discount = .ok l') : l'.Within := by
  obtain ⟨t, t', ht, hsell, rfl⟩ := commit_ok hc
  intro u hu
  obtain hu | rfl := List.mem_or_eq_of_mem_set hu
  · exact h u hu
  · exact (h t (List.mem_of_getElem? ht)).sell? hsell

theorem Within.commitFills {fills : List Fill} (h : l.Within)
    (hc : commitFills l fills = .ok l') : l'.Within := commitFills_keeps Within.commit h hc

namespace Built

theorem offered_lt (h : l.Built) : l.offered < Quantity.limit := by
  induction h with
  | ofSpecs h => exact offered_ofSpecs h
  | @commit l l' index tokens discount hl h ih =>
      have hsold : l.Sold [⟨index, discount, tokens, .zero, ⟨.zero, .zero⟩⟩] l' := sold_of_commit h
      rwa [offered_eq_of_specs hsold.specs]

/-- No tier in use sells more than it has. -/
theorem within (h : l.Built) : l.Within := by
  induction h with
  | ofSpecs h =>
      obtain ⟨-, rfl⟩ := ofSpecs_ok h
      simpa [Within] using fun s _ => Tier.within_fresh s
  | commit hl h ih => exact ih.commit h

/-- A ledger that was opened is one after fills were committed. -/
theorem commitFills {fills : List Fill} (h : l.Built) (hc : commitFills l fills = .ok l') :
    l'.Built := commitFills_keeps Built.commit h hc

/-- No more is sold than was offered. -/
theorem sold_le (h : l.Built) : l.sold ≤ l.offered :=
  List.sum_le_sum fun t ht => (h.within t ht).totalSold_le

/-- What is left is what is offered and not sold. -/
theorem sum_remaining (h : l.Built) :
    l.sold + ((l.tiers.map Tier.remaining).map Quantity.val).sum = l.offered := by
  rw [sold, offered, List.map_map, ← List.sum_map_add]
  refine congrArg List.sum (List.map_congr_left fun t ht => ?_)
  exact Nat.add_sub_cancel' (h.within t ht).totalSold_le

/-- **The saturating total of what was sold is the exact one.** -/
theorem val_totalSold (h : l.Built) : l.totalSold.val = l.sold := by
  have hle := h.sold_le
  have hlt := h.offered_lt
  rw [totalSold, TierLedger.sum, Quantity.val_total (by rw [sum_totalSold]; omega), sum_totalSold]

/-- **What was sold and what remains is what was offered.** -/
theorem val_totalRemaining (h : l.Built) : l.sold + l.totalRemaining.val = l.offered := by
  have hsum := h.sum_remaining
  have hlt := h.offered_lt
  rw [totalRemaining, TierLedger.sum, Quantity.val_total (by omega), hsum]

end Built

end TierLedger

/-! ## the sums of a plan -/

/-- The tokens of fills. -/
def tokensIn (fills : List Fill) : Nat := (fills.map fun f => f.tokens.val).sum

theorem tokensIn_cons (f : Fill) (fills : List Fill) :
    tokensIn (f :: fills) = f.tokens.val + tokensIn fills := by simp [tokensIn]

theorem spentOn_cons (f : Fill) (fills : List Fill) :
    spentOn (f :: fills) = f.units.val + spentOn fills := by simp [spentOn]

/-- The tiers together gain what the fills draw from them. -/
theorem commitFills_sold {fills : List Fill} {l l' : TierLedger}
    (h : commitFills l fills = .ok l') : l'.sold = l.sold + tokensIn fills := by
  induction fills generalizing l with
  | nil =>
      cases h
      rfl
  | cons f fs ih =>
      obtain ⟨l₁, h₁, hrest⟩ := commitFills_cons_ok_iff.1 h
      rw [ih hrest, TierLedger.sold_commit h₁, tokensIn_cons, Nat.add_assoc]

/-- The sums of fills are found, unless one of them leaves the range of amounts. -/
theorem fillTotals_cases (fills : List Fill) :
    (∃ tokens units, fillTotals fills = .ok (tokens, units) ∧ tokens.val = tokensIn fills ∧
      units.val = spentOn fills) ∨
    (fillTotals fills = .error (.overflow .tokenTotal) ∧ Quantity.limit ≤ tokensIn fills) ∨
    (fillTotals fills = .error (.overflow .unitTotal) ∧ Quantity.limit ≤ spentOn fills) := by
  unfold fillTotals
  generalize hstart : ((.zero, .zero) : Tokens × Units) = start
  have htokens : tokensIn fills = start.1.val + tokensIn fills := by simp [← hstart]
  have hunits : spentOn fills = start.2.val + spentOn fills := by simp [← hstart]
  -- the sums so far stand for any that have been found
  rw [htokens, hunits]
  clear htokens hunits hstart
  induction fills generalizing start with
  | nil => exact .inl ⟨start.1, start.2, rfl, rfl, rfl⟩
  | cons f fs ih =>
      obtain ⟨tokens, units⟩ := start
      rw [List.foldlM_cons, tokensIn_cons, spentOn_cons, ← Nat.add_assoc, ← Nat.add_assoc]
      dsimp only
      cases htokens : tokens.add? f.tokens with
      | none =>
          rw [Quantity.add?_eq_none_iff] at htokens
          exact .inr (.inl ⟨rfl, htokens.trans (Nat.le_add_right _ _)⟩)
      | some tokens' =>
      cases hunits : units.add? f.units with
      | none =>
          rw [Quantity.add?_eq_none_iff] at hunits
          exact .inr (.inr ⟨rfl, hunits.trans (Nat.le_add_right _ _)⟩)
      | some units' =>
          rw [← Quantity.add?_eq_some_iff.1 htokens, ← Quantity.add?_eq_some_iff.1 hunits]
          exact ih (tokens', units')

/-- The totals of fills are their exact sums. -/
theorem fillTotals_ok {fills : List Fill} {tokens : Tokens} {units : Units}
    (h : fillTotals fills = .ok (tokens, units)) :
    tokens.val = tokensIn fills ∧ units.val = spentOn fills := by
  obtain ⟨t, u, hok, htokens, hunits⟩ | ⟨herror, -⟩ | ⟨herror, -⟩ := fillTotals_cases fills
  · rw [h] at hok
    cases hok
    exact ⟨htokens, hunits⟩
  · rw [h] at herror
    contradiction
  · rw [h] at herror
    contradiction

/-- What keeps what was bought from becoming a plan. -/
inductive FallsShort (input : AllocationInput) (available : Units) (fills : List Fill) :
    AllocationError → Prop
  | tokenTotal (h : Quantity.limit ≤ tokensIn fills) :
    FallsShort input available fills (.overflow .tokenTotal)
  | unitTotal (h : Quantity.limit ≤ spentOn fills) :
    FallsShort input available fills (.overflow .unitTotal)
  | nothing (h : tokensIn fills = 0) : FallsShort input available fills (.zeroAllocation available)
  | slippage {least tokens : Tokens} (hleast : input.minTokens = some least)
      (htokens : tokens.val = tokensIn fills) (h : tokens < least) :
    FallsShort input available fills (.slippageExceeded least tokens)
  | unitsToFunds {units : Units} (hunits : units.val = spentOn fills)
      (h : input.rate.toFunds units = none) :
    FallsShort input available fills (.overflow .unitsToFunds)

/-- What was bought becomes a plan unless it falls short of one. -/
theorem fallsShort_of_planOf {input : AllocationInput} {requested available : Units}
    {fills : List Fill} {e : AllocationError} (h : planOf input requested available fills = .error e) :
    FallsShort input available fills e := by
  obtain ⟨tokens, units, htotals, htokens, hunits⟩ | ⟨htotals, hover⟩ | ⟨htotals, hover⟩ :=
    fillTotals_cases fills
  rotate_left
  · simp only [planOf, htotals, Except.error.injEq] at h
    exact h ▸ .tokenTotal hover
  · simp only [planOf, htotals, Except.error.injEq] at h
    exact h ▸ .unitTotal hover
  simp only [planOf, htotals] at h
  split at h
  next hzero =>
    cases h
    exact .nothing (htokens ▸ Quantity.isZero_iff.1 hzero)
  split at h
  next least hleast =>
    cases h
    obtain ⟨hmin, hless⟩ := Option.filter_eq_some_iff.1 hleast
    exact .slippage hmin htokens (of_decide_eq_true hless)
  split at h
  next hnone =>
    cases h
    exact .unitsToFunds hunits hnone
  · contradiction

/-- The sums of a plan are those of its fills, and its payment is kept or goes back. -/
structure AllocationPlan.Adds (plan : AllocationPlan) (input : AllocationInput) : Prop where
  amount : plan.amount = input.amount
  tokens : plan.result.tokensAllocated.val = tokensIn plan.fills
  units : plan.result.unitsConsumed.val = spentOn plan.fills
  funds : plan.result.fundsConsumed.val + plan.result.fundsRefunded.val = input.amount.val

/-- A plan adds up. -/
theorem allocate_adds {policy : AllocationPolicy} {input : AllocationInput} {tiers : TierLedger}
    {caps : CapTracker} {plan : AllocationPlan} (h : allocate policy input tiers caps = .ok plan) :
    plan.Adds input := by
  have hplan := made_of_allocate h
  obtain ⟨htokens, hunits⟩ := fillTotals_ok hplan.totals
  obtain ⟨worth, -, hconsumed⟩ := hplan.consumed
  refine ⟨hplan.amount, htokens, hunits, ?_⟩
  rw [hplan.refunded, hconsumed, Quantity.val_subClamped, Quantity.val_least]
  omega

end TokenSale
