import Mathlib.Order.Bounds.Basic
import TokenSale.Proofs.Totals

/-!
# TokenSale.Proofs.TierDraws

A ledger under any sequence of draws, granted or refused.  Each draw asks for
tokens of one band of one tier; whoever draws need not have looked at what is
left, so refusals are part of the history.

* `TierLedger.Built.answers` — what a draw is told, and what it leaves behind;
* `TierLedger.sold_granted` — the tiers have sold exactly what was granted;
* `TierLedger.Built.addsUp` — no sum of a report leaves the range of amounts;
* `TierLedger.isLeast_currentTier?` — the current tier is the least with tokens
  left, and later draws never move it back;
* `draws_keep_ledger` — all of it, after every sequence of draws.
-/

namespace TokenSale

/-- Tokens asked for from one band of a tier. -/
structure Draw where
  index : Nat
  tokens : Tokens
  discount : Bool
  deriving DecidableEq

/-- The fill that a granted draw amounts to; it has no price of its own. -/
def Draw.fill (d : Draw) : Fill := ⟨d.index, d.discount, d.tokens, .zero, ⟨.zero, .zero⟩⟩

/-- What is left of a band: of the tier, and for the discounted part no more
than is left of that. -/
def Tier.room (t : Tier) (discount : Bool) : Nat :=
  if discount then
    min (t.spec.discountCapacity.val - t.discountSold.val)
      (t.spec.totalCapacity.val - t.totalSold.val)
  else t.spec.totalCapacity.val - t.totalSold.val

/-- What is left for a draw, at the price or at the discount. -/
theorem Tier.val_remainingIn (t : Tier) (discount : Bool) :
    (t.remainingIn discount).val = t.room discount := by
  cases discount with
  | false => rfl
  | true => simp [remainingIn, remainingDiscount, remaining, room, Quantity.val_least]

/-- A band sells what fits in its room, by additions that stay in range. -/
theorem Tier.sell?_of_le {t : Tier} {tokens : Tokens} {discount : Bool}
    (h : tokens.val ≤ t.room discount) :
    ∃ t', t.sell? tokens discount = some t' ∧ t'.spec = t.spec ∧
      t.totalSold.add? tokens = some t'.totalSold ∧
      if discount then t.discountSold.add? tokens = some t'.discountSold
      else t'.discountSold = t.discountSold := by
  have hle : tokens ≤ t.remainingIn discount := by rwa [Quantity.le_iff, val_remainingIn]
  simp only [Quantity.add?_eq_some_iff]
  cases discount with
  | false => exact ⟨_, dif_pos hle, rfl, rfl, rfl⟩
  | true => exact ⟨_, dif_pos hle, rfl, rfl, rfl⟩

/-- A tier refuses to sell more than it has left. -/
theorem Tier.sell?_of_lt {t : Tier} {tokens : Tokens} {discount : Bool}
    (h : t.room discount < tokens.val) : t.sell? tokens discount = none := by
  have hnot : ¬ tokens ≤ t.remainingIn discount := by
    rw [Quantity.le_iff, val_remainingIn]
    omega
  cases discount with
  | false => exact dif_neg hnot
  | true => exact dif_neg hnot

/-- Adding one amount after the other never overflows if their sum is in range. -/
theorem Quantity.foldlM_add? {s : Scale} {amounts : List (Quantity s)} {a : Quantity s}
    (h : a.val + (amounts.map val).sum < limit) :
    amounts.foldlM add? a = some (amounts.foldl addClamped a) := by
  induction amounts generalizing a with
  | nil => rfl
  | cons b amounts ih =>
      rw [List.map_cons, List.sum_cons] at h
      have hfits : a.val + b.val < limit := by omega
      obtain ⟨c, hc⟩ : ∃ c, a.add? b = some c := ⟨⟨_, hfits⟩, add?_eq_some_iff.2 rfl⟩
      have hval := add?_eq_some_iff.1 hc
      have hclamped : a.addClamped b = c := by rw [addClamped, hc, Option.getD_some]
      rw [List.foldlM_cons, hc, List.foldl_cons, hclamped]
      exact ih (by omega)

namespace TierLedger

variable {l l' : TierLedger}

/-- The answer to a draw and the ledger after it. -/
def draw (l : TierLedger) (d : Draw) : Except LedgerError Unit × TierLedger :=
  match l.commit d.index d.tokens d.discount with
  | .error e => (.error e, l)
  | .ok l' => (.ok (), l')

/-- The ledger after draws, one after the other. -/
def afterDraws (l : TierLedger) (ds : List Draw) : TierLedger :=
  ds.foldl (fun l d => (l.draw d).2) l

/-- Those of the draws that were granted. -/
def granted (l : TierLedger) : List Draw → List Draw
  | [] => []
  | d :: ds =>
    match l.draw d with
    | (.ok (), l') => d :: l'.granted ds
    | (.error _, l') => l'.granted ds

@[simp] theorem afterDraws_cons (l : TierLedger) (d : Draw) (ds : List Draw) :
    l.afterDraws (d :: ds) = (l.draw d).2.afterDraws ds := rfl

theorem afterDraws_append (l : TierLedger) (ds later : List Draw) :
    l.afterDraws (ds ++ later) = (l.afterDraws ds).afterDraws later := List.foldl_append

/-! ## one draw -/

/-- What a ledger answers to a draw. -/
structure Answers (l : TierLedger) (d : Draw) : Prop where
  /-- It is granted exactly if the tier exists and the band has room. -/
  granted_iff : (l.draw d).1 = .ok () ↔
    ∃ t, l.tiers[d.index]? = some t ∧ d.tokens.val ≤ t.room d.discount
  /-- Without such a tier nothing changes. -/
  unknown : l.tiers[d.index]? = none → l.draw d = (.error (.unknownTier d.index), l)
  /-- Without the room nothing changes, and the answer says what is left. -/
  exceeded : ∀ t, l.tiers[d.index]? = some t → t.room d.discount < d.tokens.val →
    ∃ left : Tokens, left.val = t.room d.discount ∧
      l.draw d = (.error (.capacityExceeded d.index d.tokens left), l)
  /-- Otherwise the tokens are added to the sums of that tier, and no sum overflows. -/
  sold : ∀ t, l.tiers[d.index]? = some t → d.tokens.val ≤ t.room d.discount →
    ∃ t', l.draw d = (.ok (), ⟨l.tiers.set d.index t'⟩) ∧ t'.spec = t.spec ∧
      t.totalSold.add? d.tokens = some t'.totalSold ∧
      if d.discount then t.discountSold.add? d.tokens = some t'.discountSold
      else t'.discountSold = t.discountSold

theorem draw_unknown {d : Draw} (h : l.tiers[d.index]? = none) :
    l.draw d = (.error (.unknownTier d.index), l) := by
  simp only [draw, commit, h]

theorem draw_exceeded {d : Draw} {t : Tier} (ht : l.tiers[d.index]? = some t)
    (h : t.room d.discount < d.tokens.val) :
    l.draw d =
      (.error (.capacityExceeded d.index d.tokens (t.remainingIn d.discount)), l) := by
  simp only [draw, commit, ht, Tier.sell?_of_lt h]

theorem draw_sold {d : Draw} {t t' : Tier} (ht : l.tiers[d.index]? = some t)
    (h : t.sell? d.tokens d.discount = some t') :
    l.draw d = (.ok (), ⟨l.tiers.set d.index t'⟩) := by
  simp only [draw, commit, ht, h]

theorem answers (l : TierLedger) (d : Draw) : l.Answers d := by
  refine ⟨?_, draw_unknown, fun t ht hroom => ⟨_, t.val_remainingIn _, draw_exceeded ht hroom⟩,
    fun t ht hroom => ?_⟩
  · cases ht : l.tiers[d.index]? with
    | none => simp [draw_unknown ht]
    | some t =>
        by_cases hroom : d.tokens.val ≤ t.room d.discount
        · obtain ⟨t', hsell, -⟩ := Tier.sell?_of_le hroom
          simp [draw_sold ht hsell, hroom]
        · simp [draw_exceeded ht (Nat.lt_of_not_le hroom), hroom]
  · obtain ⟨t', hsell, hspec, hsums⟩ := Tier.sell?_of_le hroom
    exact ⟨t', draw_sold ht hsell, hspec, hsums⟩

/-- A draw is recorded or leaves the ledger alone. -/
theorem draw_cases (l : TierLedger) (d : Draw) :
    (∃ l', l.commit d.index d.tokens d.discount = .ok l' ∧ l.draw d = (.ok (), l')) ∨
      ∃ e, l.draw d = (.error e, l) := by
  unfold draw
  split
  · next e _ => exact .inr ⟨e, rfl⟩
  · next l' h => exact .inl ⟨l', h, rfl⟩

/-! ## all draws -/

theorem Built.afterDraws (h : l.Built) (ds : List Draw) : (l.afterDraws ds).Built := by
  induction ds generalizing l with
  | nil => exact h
  | cons d ds ih =>
      rw [afterDraws_cons]
      obtain ⟨l', hcommit, hdraw⟩ | ⟨e, hdraw⟩ := l.draw_cases d <;> rw [hdraw]
      · exact ih (h.commit hcommit)
      · exact ih h

/-- The tiers have sold what was granted, and nothing else about them changed. -/
theorem sold_granted (l : TierLedger) (ds : List Draw) :
    l.Sold ((l.granted ds).map Draw.fill) (l.afterDraws ds) := by
  induction ds generalizing l with
  | nil => exact .refl l
  | cons d ds ih =>
      rw [afterDraws_cons, granted]
      obtain ⟨l', hcommit, hdraw⟩ | ⟨e, hdraw⟩ := l.draw_cases d <;> rw [hdraw]
      · exact (sold_of_commit (f := d.fill) hcommit).append (ih l')
      · exact ih l

/-! ## sums -/

/-- The sums of a ledger that has granted draws. -/
structure AddsUp (l : TierLedger) (draws : List Draw) : Prop where
  /-- Adding up what was sold tier by tier never overflows, and neither do the
  sums of what is offered and of what is left. -/
  totalSold : (l.tiers.map Tier.totalSold).foldlM Quantity.add? .zero = some l.totalSold
  totalCapacity : (l.tiers.map fun t => t.spec.totalCapacity).foldlM Quantity.add? .zero =
    some l.totalCapacity
  totalRemaining : (l.tiers.map Tier.remaining).foldlM Quantity.add? .zero = some l.totalRemaining
  balance : l.totalSold.val + l.totalRemaining.val = l.totalCapacity.val
  granted : l.totalSold.val = (draws.map fun d => d.tokens.val).sum
  tier : ∀ i t, l.tiers[i]? = some t →
    t.totalSold.val = ((draws.filter fun d => d.index = i).map fun d => d.tokens.val).sum ∧
    t.discountSold.val =
      ((draws.filter fun d => d.index = i ∧ d.discount).map fun d => d.tokens.val).sum

theorem Built.val_totalCapacity (h : l.Built) : l.totalCapacity.val = l.offered := by
  have hlt := h.offered_lt
  rw [totalCapacity, TierLedger.sum, Quantity.val_total (by rwa [sum_totalCapacity]),
    sum_totalCapacity]

/-- Draws of one tier, summed as fills of it. -/
theorem soldOf_fill (draws : List Draw) (i : Nat) :
    soldOf (draws.map Draw.fill) i =
      ((draws.filter fun d => d.index = i).map fun d => d.tokens.val).sum := by
  rw [soldOf, List.filter_map, List.map_map]
  rfl

theorem discountSoldOf_fill (draws : List Draw) (i : Nat) :
    discountSoldOf (draws.map Draw.fill) i =
      ((draws.filter fun d => d.index = i ∧ d.discount).map fun d => d.tokens.val).sum := by
  have hfilter : (draws.filter fun d => d.index = i ∧ d.discount) =
      (draws.filter fun d => d.discount).filter fun d => d.index = i := by
    simp [List.filter_filter]
  rw [hfilter, ← soldOf_fill, discountSoldOf, List.filter_map]
  rfl

theorem sold_afterDraws (l : TierLedger) (ds : List Draw) :
    (l.afterDraws ds).sold = l.sold + ((l.granted ds).map fun d => d.tokens.val).sum := by
  induction ds generalizing l with
  | nil => rfl
  | cons d ds ih =>
      rw [afterDraws_cons, granted]
      obtain ⟨l', hcommit, hdraw⟩ | ⟨e, hdraw⟩ := l.draw_cases d <;> rw [hdraw]
      · rw [ih, sold_commit hcommit, List.map_cons, List.sum_cons, Nat.add_assoc]
      · exact ih l

theorem addsUp_ofSpecs {specs : List TierSpec} {start : TierLedger}
    (h : ofSpecs specs = .ok start) (ds : List Draw) :
    (start.afterDraws ds).AddsUp (start.granted ds) := by
  obtain ⟨-, hfresh⟩ := ofSpecs_ok h
  have hbuilt := (Built.ofSpecs h).afterDraws ds
  have hstart : start.sold = 0 := by simp [hfresh, sold, Function.comp_def, Tier.fresh]
  have hle := hbuilt.sold_le
  have hlt := hbuilt.offered_lt
  have hremaining := hbuilt.sum_remaining
  refine ⟨Quantity.foldlM_add? ?_, Quantity.foldlM_add? ?_, Quantity.foldlM_add? ?_, ?_, ?_,
    fun i t ht => ?_⟩
  · rw [sum_totalSold, Quantity.val_zero]
    omega
  · rw [sum_totalCapacity, Quantity.val_zero]
    omega
  · rw [Quantity.val_zero]
    omega
  · rw [hbuilt.val_totalSold, hbuilt.val_totalRemaining, hbuilt.val_totalCapacity]
  · rw [hbuilt.val_totalSold, sold_afterDraws, hstart, Nat.zero_add]
  · obtain ⟨t₀, ht₀, hsold⟩ := (sold_granted start ds).tier i t ht
    obtain ⟨spec, -, rfl⟩ : ∃ spec ∈ specs, Tier.fresh spec = t₀ := by
      simpa [hfresh] using List.mem_of_getElem? ht₀
    rw [hsold.totalSold, hsold.discountSold, soldOf_fill, discountSoldOf_fill]
    exact ⟨Nat.zero_add _, Nat.zero_add _⟩

/-! ## the current tier -/

/-- Whether tokens are left of the tier at an index. -/
def HasLeft (l : TierLedger) (i : Nat) : Prop :=
  ∃ t, l.tiers[i]? = some t ∧ t.totalSold.val < t.spec.totalCapacity.val

theorem hasLeft_iff {i : Nat} :
    l.HasLeft i ↔ ∃ h : i < l.tiers.length, (!l.tiers[i].isExhausted) = true := by
  simp [HasLeft, List.getElem?_eq_some_iff, Tier.isExhausted, Tier.remaining]

/-- There is no current tier exactly if nothing is left. -/
theorem currentTier?_eq_none : l.currentTier? = none ↔ ∀ i, ¬ l.HasLeft i := by
  simp only [currentTier?, List.findIdx?_eq_none_iff, hasLeft_iff, not_exists,
    List.forall_mem_iff_getElem]
  exact forall₂_congr fun _ _ => by rw [Bool.not_eq_true]

/-- The current tier is the least of which something is left. -/
theorem isLeast_currentTier? {i : Nat} :
    l.currentTier? = some i ↔ IsLeast {i | l.HasLeft i} i := by
  simp only [currentTier?, List.findIdx?_eq_some_iff_getElem, IsLeast, mem_lowerBounds,
    Set.mem_ofPred_eq, hasLeft_iff]
  constructor
  · rintro ⟨hi, hleft, hbefore⟩
    refine ⟨⟨hi, hleft⟩, fun j hj => Nat.le_of_not_lt fun hlt => ?_⟩
    obtain ⟨_, hleft'⟩ := hj
    exact hbefore j hlt hleft'
  · rintro ⟨⟨hi, hleft⟩, hleast⟩
    refine ⟨hi, hleft, fun j hlt hleft' => ?_⟩
    exact Nat.not_le_of_lt hlt (hleast j ⟨Nat.lt_trans hlt hi, hleft'⟩)

theorem HasLeft.of_afterDraws {ds : List Draw} {i : Nat} (h : (l.afterDraws ds).HasLeft i) :
    l.HasLeft i := by
  obtain ⟨t', ht', hleft⟩ := h
  obtain ⟨t, ht, hsold⟩ := (l.sold_granted ds).tier i t' ht'
  refine ⟨t, ht, ?_⟩
  rw [hsold.spec, hsold.totalSold] at hleft
  omega

/-- Draws move the current tier forward only. -/
theorem currentTier?_afterDraws {ds : List Draw} {j : Nat}
    (h : (l.afterDraws ds).currentTier? = some j) : ∃ i ≤ j, l.currentTier? = some i := by
  have hleft : l.HasLeft j := (isLeast_currentTier?.1 h).1.of_afterDraws
  cases hcurrent : l.currentTier? with
  | none => exact absurd hleft (currentTier?_eq_none.1 hcurrent j)
  | some i => exact ⟨i, (isLeast_currentTier?.1 hcurrent).2 hleft, rfl⟩

end TierLedger

/-- **A ledger under draws.**  Whatever is asked of the tiers that a ledger was
opened with, in whatever order: their shapes and their order stay; no band
sells more than it has; a draw is granted exactly if its tier exists and its
band has room, and one that is refused changes nothing; no addition overflows,
and the totals are exact; and the current tier is the least with tokens left,
from which draws only move forward. -/
theorem draws_keep_ledger {specs : List TierSpec} {start : TierLedger}
    (h : TierLedger.ofSpecs specs = .ok start) (ds : List Draw) :
    (start.afterDraws ds).specs = specs ∧
      (∀ t ∈ (start.afterDraws ds).tiers, t.Within) ∧
      (∀ d, (start.afterDraws ds).Answers d) ∧
      (start.afterDraws ds).AddsUp (start.granted ds) ∧
      (∀ i, (start.afterDraws ds).currentTier? = some i ↔
        IsLeast {i | (start.afterDraws ds).HasLeft i} i) ∧
      ((start.afterDraws ds).currentTier? = none ↔ ∀ i, ¬ (start.afterDraws ds).HasLeft i) ∧
      ∀ later j, (start.afterDraws (ds ++ later)).currentTier? = some j →
        ∃ i ≤ j, (start.afterDraws ds).currentTier? = some i := by
  refine ⟨(TierLedger.sold_granted start ds).specs.trans (TierLedger.specs_of_ofSpecs h),
    ((TierLedger.Built.ofSpecs h).afterDraws ds).within, TierLedger.answers _,
    TierLedger.addsUp_ofSpecs h ds, fun i => TierLedger.isLeast_currentTier?,
    TierLedger.currentTier?_eq_none, fun later j hj => ?_⟩
  rw [TierLedger.afterDraws_append] at hj
  exact TierLedger.currentTier?_afterDraws hj

/-- The first tier is sold by two draws; more of its discounted part than there
is and a tier that does not exist are refused. -/
def Sample.draws : List Draw :=
  [⟨0, ⟨5, by decide⟩, true⟩, ⟨0, .one, true⟩, ⟨7, .one, false⟩, ⟨0, ⟨9, by decide⟩, false⟩,
    ⟨1, ⟨6, by decide⟩, false⟩]

theorem draws_keep_two_tiers :
    TierLedger.ofSpecs Sample.tiers.specs = .ok Sample.tiers ∧
      (Sample.tiers.granted Sample.draws).length = 3 ∧
      (Sample.tiers.afterDraws Sample.draws).AddsUp (Sample.tiers.granted Sample.draws) ∧
      (Sample.tiers.afterDraws Sample.draws).Answers ⟨1, ⟨8, by decide⟩, false⟩ ∧
      IsLeast {i | (Sample.tiers.afterDraws Sample.draws).HasLeft i} 1 := by
  have hopen : TierLedger.ofSpecs Sample.tiers.specs = .ok Sample.tiers := by rfl
  obtain ⟨-, -, hanswers, haddsUp, hcurrent, -, -⟩ := draws_keep_ledger hopen Sample.draws
  exact ⟨hopen, by rfl, haddsUp, hanswers _, (hcurrent 1).1 (by rfl)⟩

end TokenSale
