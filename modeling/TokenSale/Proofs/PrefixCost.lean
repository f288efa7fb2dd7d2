import TokenSale.Proofs.Totals

/-!
# TokenSale.Proofs.PrefixCost

What a greedy walk buys is a prefix of the tokens on offer.  Its cost is a
function of its length alone, the walk buys the longest prefix that the budget
covers, and once it is committed the rest is on offer.

* `prefixCost` — what the first tokens of a list of slots cost;
* `dropTokens` — what is on offer behind them;
* `prefixCost_add_le` — a prefix bought in two parts does not cost less;
* `Greedy.spentOn_eq`, `Greedy.isGreatest` — the walk in terms of prefixes;
* `Greedy.commitFills` — a walk over what a ledger offers can be committed;
* `allocate_isGreatest`, `slots_of_execute` — plans in terms of prefixes.
-/

namespace TokenSale

namespace Price

variable {p : Price}

@[simp] theorem exactCost_zero (p : Price) : p.exactCost 0 = 0 := by simp [exactCost]

/-- More tokens cost at least as much. -/
theorem exactCost_mono (hp : 0 < p.tokens.val) {m n : Nat} (h : m ≤ n) :
    p.exactCost m ≤ p.exactCost n := by
  rw [exactCost_le_iff hp]
  exact (Nat.mul_le_mul_right _ h).trans ((exactCost_le_iff hp).1 le_rfl)

end Price

/-! ## prefixes -/

/-- The slot after its first `n` tokens were sold. -/
def Slot.after (s : Slot) (n : Nat) : Slot :=
  { s with capacity := ⟨s.capacity.val - n, Nat.lt_of_le_of_lt (Nat.sub_le _ _) s.capacity.val_lt⟩ }

@[simp] theorem Slot.capacity_after (s : Slot) (n : Nat) :
    (s.after n).capacity.val = s.capacity.val - n := rfl

/-- The tokens on offer. -/
def tokensOn (slots : List Slot) : Nat := (slots.map fun s => s.capacity.val).sum

/-- What the first `n` tokens on offer cost, bought slot by slot. -/
def prefixCost : List Slot → Nat → Nat
  | [], _ => 0
  | s :: rest, n => s.price.exactCost (min n s.capacity.val) + prefixCost rest (n - s.capacity.val)

/-- What is on offer behind the first `n` tokens. -/
def dropTokens : Nat → List Slot → List Slot
  | _, [] => []
  | n, s :: rest =>
    if n < s.capacity.val then s.after n :: rest else dropTokens (n - s.capacity.val) rest

@[simp] theorem tokensOn_nil : tokensOn [] = 0 := rfl

@[simp] theorem tokensOn_cons (s : Slot) (rest : List Slot) :
    tokensOn (s :: rest) = s.capacity.val + tokensOn rest := by simp [tokensOn]

theorem tokensOn_append (slots slots' : List Slot) :
    tokensOn (slots ++ slots') = tokensOn slots + tokensOn slots' := by simp [tokensOn]

/-- Slots of which nothing is left do not count. -/
theorem tokensOn_filter (slots : List Slot) :
    tokensOn (slots.filter fun s => !s.capacity.isZero) = tokensOn slots := by
  induction slots with
  | nil => rfl
  | cons s rest ih =>
      rw [List.filter_cons, tokensOn_cons, ← ih]
      split
      next => rw [tokensOn_cons]
      next hzero =>
        have hnone : s.capacity.val = 0 := by simpa using hzero
        rw [hnone, Nat.zero_add]

@[simp] theorem prefixCost_zero (slots : List Slot) : prefixCost slots 0 = 0 := by
  induction slots with
  | nil => rfl
  | cons s rest ih => simp [prefixCost, ih]

/-- Tokens within the first slot cost its price. -/
theorem prefixCost_of_le {s : Slot} {rest : List Slot} {n : Nat} (h : n ≤ s.capacity.val) :
    prefixCost (s :: rest) n = s.price.exactCost n := by
  simp [prefixCost, Nat.min_eq_left h, Nat.sub_eq_zero_of_le h]

/-- Tokens beyond the first slot cost all of it, and the rest from there on. -/
theorem prefixCost_add_capacity (s : Slot) (rest : List Slot) (n : Nat) :
    prefixCost (s :: rest) (s.capacity.val + n) =
      s.price.exactCost s.capacity.val + prefixCost rest n := by
  rw [prefixCost, Nat.min_eq_right (Nat.le_add_right _ _), Nat.add_sub_cancel_left]

/-- A longer prefix does not cost less. -/
theorem prefixCost_mono {slots : List Slot} (h : ∀ s ∈ slots, s.IsOpen) {m n : Nat} (hmn : m ≤ n) :
    prefixCost slots m ≤ prefixCost slots n := by
  induction slots generalizing m n with
  | nil => exact le_rfl
  | cons s rest ih =>
      obtain ⟨hs, hrest⟩ := List.forall_mem_cons.1 h
      have hfirst : min m s.capacity.val ≤ min n s.capacity.val := by omega
      have hbehind : m - s.capacity.val ≤ n - s.capacity.val := by omega
      rw [prefixCost, prefixCost]
      exact Nat.add_le_add (Price.exactCost_mono (Price.isValid_iff.1 hs.2).2 hfirst)
        (ih hrest hbehind)

/-- Tokens beyond the first slots are charged to those behind them. -/
theorem prefixCost_append (slots slots' : List Slot) (n : Nat) :
    prefixCost (slots ++ slots') n = prefixCost slots n + prefixCost slots' (n - tokensOn slots) := by
  induction slots generalizing n with
  | nil => simp [prefixCost]
  | cons s rest ih =>
      rw [List.cons_append, prefixCost, prefixCost, ih, tokensOn_cons, Nat.add_assoc, Nat.sub_sub]

theorem prefixCost_filter (slots : List Slot) (n : Nat) :
    prefixCost (slots.filter fun s => !s.capacity.isZero) n = prefixCost slots n := by
  induction slots generalizing n with
  | nil => rfl
  | cons s rest ih =>
      rw [List.filter_cons, prefixCost, ← ih]
      split
      next => rw [prefixCost]
      next hzero =>
        have hnone : s.capacity.val = 0 := by simpa using hzero
        rw [hnone, Nat.min_zero, Price.exactCost_zero, Nat.zero_add, Nat.sub_zero]

theorem dropTokens_zero {slots : List Slot} (h : ∀ s ∈ slots, s.IsOpen) :
    dropTokens 0 slots = slots := by
  cases slots with
  | nil => rfl
  | cons s rest => exact if_pos (h s List.mem_cons_self).1

/-- A sale within the first slot leaves the rest of it. -/
theorem dropTokens_of_lt {s : Slot} {rest : List Slot} {n : Nat} (h : n < s.capacity.val) :
    dropTokens n (s :: rest) = s.after n :: rest := if_pos h

/-- A sale beyond the first slot leaves nothing of it. -/
theorem dropTokens_add_capacity (s : Slot) (rest : List Slot) (n : Nat) :
    dropTokens (s.capacity.val + n) (s :: rest) = dropTokens n rest := by
  rw [dropTokens, if_neg (Nat.not_lt.2 (Nat.le_add_right _ _)), Nat.add_sub_cancel_left]

/-- What was sold is no longer on offer. -/
theorem tokensOn_dropTokens (n : Nat) (slots : List Slot) :
    tokensOn (dropTokens n slots) = tokensOn slots - n := by
  induction slots generalizing n with
  | nil => simp [dropTokens]
  | cons s rest ih =>
      rw [dropTokens, tokensOn_cons]
      split
      · rw [tokensOn_cons, Slot.capacity_after]
        omega
      · rw [ih]
        omega

/-- **A prefix bought in two parts does not cost less**: the second part starts
in the middle of the slot where the first stopped, and rounds up there again. -/
theorem prefixCost_add_le {slots : List Slot} (h : ∀ s ∈ slots, s.IsOpen) (m n : Nat) :
    prefixCost slots (m + n) ≤ prefixCost slots m + prefixCost (dropTokens m slots) n := by
  induction slots generalizing m with
  | nil => exact Nat.zero_le _
  | cons s rest ih =>
      obtain ⟨hs, hrest⟩ := List.forall_mem_cons.1 h
      obtain hm | hm := Nat.lt_or_ge m s.capacity.val
      · have hsplit : min (m + n) s.capacity.val = m + min n (s.capacity.val - m) := by omega
        have hbehind : m + n - s.capacity.val = n - (s.capacity.val - m) := by omega
        have hcost := Price.exactCost_add_le (Price.isValid_iff.1 hs.2).2 m
          (min n (s.capacity.val - m))
        rw [dropTokens_of_lt hm, prefixCost_of_le hm.le, prefixCost, prefixCost, hsplit, hbehind]
        simp only [Slot.after]
        omega
      · obtain ⟨k, rfl⟩ := Nat.exists_eq_add_of_le hm
        rw [dropTokens_add_capacity, Nat.add_assoc, prefixCost_add_capacity,
          prefixCost_add_capacity, Nat.add_assoc]
        exact Nat.add_le_add_left (ih hrest k) _

/-- What is on offer of a tier is what is left of it. -/
theorem Tier.tokensOn_slots (t : Tier) (eligible : Bool) (index : Nat) :
    tokensOn (t.slots eligible index) = t.remaining.val := by
  have hoffered : (t.offeredDiscount eligible).val ≤ t.remaining.val := by
    cases eligible with
    | false => exact Nat.zero_le _
    | true => exact t.remainingDiscount_le
  rw [slots, tokensOn_filter, tokensOn_cons, tokensOn_cons, tokensOn_nil, Nat.add_zero,
    Quantity.val_subClamped, Nat.add_sub_cancel' hoffered]

/-- The slots of the tiers offer what these have left. -/
theorem tokensOn_slotsFrom (eligible : Bool) (index : Nat) (tiers : List Tier) :
    tokensOn (slotsFrom eligible index tiers) = ((tiers.map Tier.remaining).map Quantity.val).sum := by
  induction tiers generalizing index with
  | nil => rfl
  | cons t rest ih =>
      rw [slotsFrom, tokensOn_append, Tier.tokensOn_slots, ih, List.map_cons, List.map_cons,
        List.sum_cons]

/-- All that is on offer can be counted. -/
theorem TierLedger.Built.tokensOn_lt {l : TierLedger} (h : l.Built) (eligible : Bool) :
    tokensOn (l.slots eligible) < Quantity.limit := by
  rw [TierLedger.slots, tokensOn_slotsFrom]
  have hsum := h.sum_remaining
  have hlt := h.offered_lt
  omega

/-! ## greedy walks -/

/-- A slot that is split is not sold out. -/
theorem Slot.Splits.lt_capacity {s : Slot} {budget n : Nat} (h : s.Splits budget n)
    (hs : s.IsOpen) : n < s.capacity.val := by
  by_contra hle
  have hcost := Price.exactCost_mono (Price.isValid_iff.1 hs.2).2 (Nat.le_of_not_lt hle)
  exact absurd (hcost.trans h.most.1) (Nat.not_le.2 h.short)

/-- A slot that is split bounds the prefix, whatever stands behind it. -/
theorem Slot.Splits.isGreatest {s : Slot} {budget n : Nat} (h : s.Splits budget n) (hs : s.IsOpen)
    (rest : List Slot) :
    IsGreatest {m | m ≤ tokensOn (s :: rest) ∧ prefixCost (s :: rest) m ≤ budget} n := by
  have hlt := h.lt_capacity hs
  refine ⟨⟨?_, ?_⟩, fun m hm => ?_⟩
  · rw [tokensOn_cons]
    omega
  · rw [prefixCost_of_le hlt.le]
    exact h.most.1
  · have hcost : s.price.exactCost (min m s.capacity.val) ≤ budget :=
      (Nat.le_add_right _ _).trans hm.2
    have hmin : min m s.capacity.val ≤ n := h.most.2 hcost
    omega

namespace Greedy

variable {slots : List Slot} {budget : Nat} {fills : List Fill}

/-- What a walk spends is the cost of the prefix that it buys. -/
theorem spentOn_eq (h : Greedy slots budget fills) (hslots : ∀ s ∈ slots, s.IsOpen) :
    spentOn fills = prefixCost slots (tokensIn fills) := by
  induction h with
  | done => rfl
  | stop => exact (prefixCost_zero _).symm
  | @whole s rest budget cost fills hcost hle h ih =>
      have hrest := ih fun s hs => hslots s (List.mem_cons_of_mem _ hs)
      rw [tokensIn_cons, spentOn_cons, hrest, Slot.fill, prefixCost_add_capacity,
        (Price.costOf_ok hcost).2]
  | @split s rest budget tokens cost h hcost hpos =>
      have hlt := h.lt_capacity (hslots s List.mem_cons_self)
      exact (Price.costOf_ok hcost).2.trans (prefixCost_of_le hlt.le).symm

/-- **A walk buys the longest prefix that the budget covers.** -/
theorem isGreatest (h : Greedy slots budget fills) (hslots : ∀ s ∈ slots, s.IsOpen) :
    IsGreatest {n | n ≤ tokensOn slots ∧ prefixCost slots n ≤ budget} (tokensIn fills) := by
  induction h with
  | done => exact ⟨⟨le_rfl, Nat.zero_le _⟩, fun m hm => hm.1⟩
  | stop h => exact h.isGreatest (hslots _ List.mem_cons_self) _
  | split h => exact h.isGreatest (hslots _ List.mem_cons_self) _
  | @whole s rest budget cost fills hcost hle h ih =>
      obtain ⟨⟨htokens, hcovered⟩, hmost⟩ := ih fun s hs => hslots s (List.mem_cons_of_mem _ hs)
      have hexact := (Price.costOf_ok hcost).2
      rw [tokensIn_cons, Slot.fill]
      refine ⟨⟨?_, ?_⟩, fun m hm => ?_⟩
      · rw [tokensOn_cons]
        exact Nat.add_le_add_left htokens _
      · rw [prefixCost_add_capacity]
        omega
      · obtain hle' | hlt := Nat.le_total m s.capacity.val
        · exact hle'.trans (Nat.le_add_right _ _)
        · obtain ⟨k, rfl⟩ := Nat.exists_eq_add_of_le hlt
          rw [Set.mem_ofPred_eq, tokensOn_cons, prefixCost_add_capacity] at hm
          have hk : k ≤ tokensIn fills := hmost ⟨by omega, by omega⟩
          exact Nat.add_le_add_left hk _

end Greedy

/-! ## what is on offer after a sale -/

/-- A slot, or nothing if nothing is left of it. -/
theorem dropTokens_of_le {s : Slot} {rest : List Slot} {n : Nat} (hrest : ∀ s ∈ rest, s.IsOpen)
    (h : n ≤ s.capacity.val) :
    dropTokens n (s :: rest) = ([s.after n].filter fun s => !s.capacity.isZero) ++ rest := by
  obtain rfl | hlt := h.eq_or_lt
  · have hzero : (s.after s.capacity.val).capacity.isZero = true := by simp
    rw [← Nat.add_zero s.capacity.val, dropTokens_add_capacity, dropTokens_zero hrest,
      Nat.add_zero, List.filter_cons_of_neg (by simp [hzero]), List.filter_nil, List.nil_append]
  · have hpos : (s.after n).capacity.isZero = false := by
      rw [Quantity.isZero_eq_false_iff, Slot.capacity_after]
      omega
    rw [dropTokens_of_lt hlt, List.filter_cons_of_pos (by simp [hpos]), List.filter_nil,
      List.singleton_append]

namespace Tier

variable {t : Tier} {tokens : Tokens} {eligible : Bool}

/-- What is offered at the discount is what is left there, if it is open. -/
theorem val_offeredDiscount (t : Tier) (eligible : Bool) : (t.offeredDiscount eligible).val =
    if eligible then min (t.spec.discountCapacity.val - t.discountSold.val)
      (t.spec.totalCapacity.val - t.totalSold.val) else 0 := by
  cases eligible with
  | false => rfl
  | true => simp [offeredDiscount, remainingDiscount, remaining, Quantity.val_least]

/-- A tier that sells at a discount has that much less at a discount, and as much as
before at its price. -/
theorem sell?_discount (hle : tokens.val ≤ (t.offeredDiscount eligible).val)
    (hpos : 0 < (t.offeredDiscount eligible).val) : ∃ t', t.sell? tokens true = some t' ∧
      t'.spec = t.spec ∧
      (t'.offeredDiscount eligible).val = (t.offeredDiscount eligible).val - tokens.val ∧
      (t'.remaining.subClamped (t'.offeredDiscount eligible)).val =
        (t.remaining.subClamped (t.offeredDiscount eligible)).val := by
  cases eligible with
  | false => exact absurd hpos (Nat.lt_irrefl 0)
  | true =>
      have hsell : tokens ≤ t.remainingIn true := hle
      refine ⟨_, dif_pos hsell, rfl, ?_, ?_⟩
      · simp only [val_offeredDiscount, if_true] at hle ⊢
        omega
      · simp only [Quantity.val_subClamped, val_offeredDiscount, if_true, remaining] at hle ⊢
        omega

/-- A tier without a discount left sells at its price. -/
theorem sell?_rest (hnone : (t.offeredDiscount eligible).val = 0)
    (hle : tokens.val ≤ t.remaining.val) (hpos : 0 < t.remaining.val) :
    ∃ t', t.sell? tokens false = some t' ∧ t'.spec = t.spec ∧
      (t'.offeredDiscount eligible).val = 0 ∧
      t'.remaining.val = t.remaining.val - tokens.val := by
  have hsell : tokens ≤ t.remainingIn false := hle
  refine ⟨_, dif_pos hsell, rfl, ?_, ?_⟩
  · cases eligible with
    | false => rfl
    | true =>
        simp only [val_offeredDiscount, if_true] at hnone ⊢
        simp only [remaining, Quantity.val_subClamped] at hpos
        omega
  · simp only [remaining, Quantity.val_subClamped]
    omega

/-- Selling from the first slot of a tier leaves the rest of that slot, and the
other one as it was. -/
theorem sell?_slots {index : Nat} {s : Slot} {more : List Slot} (ht : t.spec.IsPriced)
    (hslots : t.slots eligible index = s :: more) (hle : tokens.val ≤ s.capacity.val) :
    s.index = index ∧ ∃ t', t.sell? tokens s.isDiscount = some t' ∧
      t'.slots eligible index = dropTokens tokens.val (s :: more) := by
  have hmore : ∀ s ∈ more, s.IsOpen := fun x hx =>
    isOpen_of_mem_slots ht (hslots ▸ List.mem_cons_of_mem _ hx)
  rw [dropTokens_of_le hmore hle]
  unfold slots at hslots
  cases hdiscount : (t.offeredDiscount eligible).isZero with
  | false =>
      rw [List.filter_cons_of_pos (by simp [hdiscount]), List.cons.injEq] at hslots
      obtain ⟨rfl, rfl⟩ := hslots
      obtain ⟨t', hsell, hspec, hoffer, hrest⟩ :=
        sell?_discount hle (Quantity.isZero_eq_false_iff.1 hdiscount)
      refine ⟨rfl, t', hsell, ?_⟩
      rw [slots, ← List.filter_append, hspec, Quantity.ext hrest]
      congr 3
      exact Quantity.ext hoffer
  | true =>
      rw [List.filter_cons_of_neg (by simp [hdiscount])] at hslots
      rw [Quantity.isZero_iff] at hdiscount
      have hall : (t.remaining.subClamped (t.offeredDiscount eligible)).val = t.remaining.val := by
        rw [Quantity.val_subClamped, hdiscount, Nat.sub_zero]
      cases hrest : (t.remaining.subClamped (t.offeredDiscount eligible)).isZero with
      | true =>
          rw [List.filter_cons_of_neg (by simp [hrest])] at hslots
          contradiction
      | false =>
          rw [List.filter_cons_of_pos (by simp [hrest]), List.filter_nil, List.cons.injEq] at hslots
          obtain ⟨rfl, rfl⟩ := hslots
          rw [Quantity.isZero_eq_false_iff, hall] at hrest
          obtain ⟨t', hsell, hspec, hoffer, hremaining⟩ := sell?_rest hdiscount (hall ▸ hle) hrest
          have hcapacity : t'.remaining.subClamped (t'.offeredDiscount eligible) =
              (t.remaining.subClamped (t.offeredDiscount eligible)).subClamped tokens := by
            refine Quantity.ext ?_
            rw [Quantity.val_subClamped, Quantity.val_subClamped, hoffer, Nat.sub_zero, hremaining,
              hall]
          refine ⟨rfl, t', hsell, ?_⟩
          rw [slots, List.filter_cons_of_neg (by simpa using hoffer), hspec, hcapacity,
            List.append_nil]
          rfl

end Tier

/-- Selling from the first slot leaves that slot smaller and the others as they
were. -/
theorem slotsFrom_set_of_sell {eligible : Bool} {index : Nat} {tiers : List Tier} {s : Slot}
    {more : List Slot} {tokens : Tokens} (ht : ∀ t ∈ tiers, t.spec.IsPriced)
    (hslots : slotsFrom eligible index tiers = s :: more) (hle : tokens.val ≤ s.capacity.val) :
    ∃ i t t', s.index = index + i ∧ tiers[i]? = some t ∧ t.sell? tokens s.isDiscount = some t' ∧
      slotsFrom eligible index (tiers.set i t') = dropTokens tokens.val (s :: more) := by
  induction tiers generalizing index with
  | nil => contradiction
  | cons t rest ih =>
      have hopen : ∀ s ∈ slotsFrom eligible index (t :: rest), s.IsOpen := fun s hs =>
        isOpen_of_mem_slotsFrom ht hs
      obtain ⟨hfirst, hrest⟩ := List.forall_mem_cons.1 ht
      rw [slotsFrom] at hslots
      cases hown : t.slots eligible index with
      | nil =>
          rw [hown, List.nil_append] at hslots
          obtain ⟨i, u, u', hindex, hu, hsell, hafter⟩ := ih hrest hslots
          refine ⟨i + 1, u, u', by omega, by simpa using hu, hsell, ?_⟩
          rw [List.set_cons_succ, slotsFrom, hown, List.nil_append, hafter]
      | cons s' own =>
          rw [hown, List.cons_append, List.cons.injEq] at hslots
          obtain ⟨rfl, rfl⟩ := hslots
          obtain ⟨hindex, t', hsell, hafter⟩ := Tier.sell?_slots hfirst hown hle
          have hown' : ∀ s ∈ own, s.IsOpen := fun s hs => hopen s <| by
            simp [slotsFrom, hown, hs]
          have hboth : ∀ s ∈ own ++ slotsFrom eligible (index + 1) rest, s.IsOpen :=
            fun s hs => hopen s <| by
              rw [slotsFrom, hown, List.cons_append]
              exact List.mem_cons_of_mem _ hs
          refine ⟨0, t, t', hindex, rfl, hsell, ?_⟩
          rw [List.set_cons_zero, slotsFrom, hafter, dropTokens_of_le hown' hle,
            dropTokens_of_le hboth hle, List.append_assoc]

/-- Selling from the first slot on offer leaves what stands behind. -/
theorem TierLedger.commit_slots {l : TierLedger} {eligible : Bool} {s : Slot} {more : List Slot}
    {tokens : Tokens} (hl : ∀ t ∈ l.tiers, t.spec.IsPriced)
    (hslots : l.slots eligible = s :: more) (hle : tokens.val ≤ s.capacity.val) :
    ∃ l', l.commit s.index tokens s.isDiscount = .ok l' ∧
      l'.slots eligible = dropTokens tokens.val (s :: more) := by
  obtain ⟨i, t, t', hindex, ht, hsell, hafter⟩ := slotsFrom_set_of_sell hl hslots hle
  rw [Nat.zero_add] at hindex
  exact ⟨⟨l.tiers.set i t'⟩, by simp [commit, hindex, ht, hsell], hafter⟩

theorem TierLedger.isPriced_of_commit {l l' : TierLedger} {index : Nat} {tokens : Tokens}
    {discount : Bool} (hl : ∀ t ∈ l.tiers, t.spec.IsPriced)
    (h : l.commit index tokens discount = .ok l') : ∀ t ∈ l'.tiers, t.spec.IsPriced := by
  obtain ⟨t, t', ht, hsell, rfl⟩ := commit_ok h
  intro u hu
  obtain hu | rfl := List.mem_or_eq_of_mem_set hu
  · exact hl u hu
  · rw [(Tier.sell?_ok hsell).2.1]
    exact hl t (List.mem_of_getElem? ht)

/-- **A walk over what a ledger offers can be committed**, and then the ledger
offers what stands behind the tokens that were bought. -/
theorem Greedy.commitFills {l : TierLedger} {eligible : Bool} {slots : List Slot} {budget : Nat}
    {fills : List Fill} (h : Greedy slots budget fills) (hl : ∀ t ∈ l.tiers, t.spec.IsPriced)
    (hslots : l.slots eligible = slots) : ∃ l', TokenSale.commitFills l fills = .ok l' ∧
      l'.slots eligible = dropTokens (tokensIn fills) slots := by
  have hopen : ∀ s ∈ slots, s.IsOpen := fun s hs => isOpen_of_mem_slotsFrom hl (hslots ▸ hs)
  induction h generalizing l with
  | done | stop => exact ⟨l, rfl, hslots.trans (dropTokens_zero hopen).symm⟩
  | @whole s rest budget cost fills hcost hle h ih =>
      have hrest : ∀ s ∈ rest, s.IsOpen := (List.forall_mem_cons.1 hopen).2
      obtain ⟨l₁, hcommit, hslots₁⟩ := TierLedger.commit_slots hl hslots le_rfl
      rw [← Nat.add_zero s.capacity.val, dropTokens_add_capacity, dropTokens_zero hrest] at hslots₁
      obtain ⟨l', hfills, hslots'⟩ :=
        ih (TierLedger.isPriced_of_commit hl hcommit) hslots₁ hrest
      refine ⟨l', ?_, ?_⟩
      · exact commitFills_cons_ok_iff.2 ⟨l₁, hcommit, hfills⟩
      · rw [hslots', tokensIn_cons, Slot.fill, dropTokens_add_capacity]
  | @split s rest budget tokens cost h hcost hpos =>
      have hlt := h.lt_capacity (hopen s List.mem_cons_self)
      obtain ⟨l', hcommit, hslots'⟩ := TierLedger.commit_slots hl hslots hlt.le
      refine ⟨l', ?_, hslots'⟩
      exact commitFills_cons_ok_iff.2 ⟨l', hcommit, rfl⟩

/-! ## plans -/

section Plans

variable {policy : AllocationPolicy} {input : AllocationInput} {tiers tiers' : TierLedger}
  {caps caps' : CapTracker} {plan : AllocationPlan}

/-- A ledger that was opened offers open slots only. -/
theorem TierLedger.Built.isOpen (ht : tiers.Built) (eligible : Bool) :
    ∀ s ∈ tiers.slots eligible, s.IsOpen := fun _ hs => isOpen_of_mem_slotsFrom ht.isPriced hs

/-- A plan takes from the slots greedily. -/
theorem greedy_of_allocate (ht : tiers.Built) (h : allocate policy input tiers caps = .ok plan) :
    Greedy (tiers.slots (policy.isDiscountEligible input.currency)) plan.availableUnits.val
      plan.fills := by
  obtain ⟨-, -, -, basket, hwalk, hfills⟩ := allocate_ok h
  obtain ⟨fills, hbasket, hgreedy⟩ := walk_greedy ht.isPriced hwalk
  have hplan : plan.fills = fills := by simpa [hbasket] using hfills
  exact hplan ▸ hgreedy

/-- **A plan buys the longest prefix that may be spent on.** -/
theorem allocate_isGreatest (ht : tiers.Built)
    (h : allocate policy input tiers caps = .ok plan) :
    IsGreatest {n | n ≤ tokensOn (tiers.slots (policy.isDiscountEligible input.currency)) ∧
      prefixCost (tiers.slots (policy.isDiscountEligible input.currency)) n ≤
        plan.availableUnits.val} plan.result.tokensAllocated.val := by
  rw [(allocate_adds h).tokens]
  exact (greedy_of_allocate ht h).isGreatest (ht.isOpen _)

/-- A plan consumes what its prefix costs. -/
theorem unitsConsumed_of_allocate (ht : tiers.Built)
    (h : allocate policy input tiers caps = .ok plan) : plan.result.unitsConsumed.val =
      prefixCost (tiers.slots (policy.isDiscountEligible input.currency))
        plan.result.tokensAllocated.val := by
  rw [(allocate_adds h).units, (allocate_adds h).tokens]
  exact (greedy_of_allocate ht h).spentOn_eq (ht.isOpen _)

/-- **The tiers never refuse a plan that was made for them.** -/
theorem commitFills_of_allocate (ht : tiers.Built)
    (h : allocate policy input tiers caps = .ok plan) :
    ∃ tiers', commitFills tiers plan.fills = .ok tiers' ∧
      tiers'.slots (policy.isDiscountEligible input.currency) =
        dropTokens plan.result.tokensAllocated.val
          (tiers.slots (policy.isDiscountEligible input.currency)) := by
  rw [(allocate_adds h).tokens]
  exact (greedy_of_allocate ht h).commitFills ht.isPriced rfl

/-- An executed purchase was planned and committed. -/
theorem execute_ok (h : execute policy input tiers caps = .ok (plan, tiers', caps')) :
    allocate policy input tiers caps = .ok plan ∧
      commitPlan plan tiers caps = .ok (tiers', caps') := by
  unfold execute at h
  split at h
  · contradiction
  next made hmade =>
  cases hcommit : commitPlan made tiers caps with
  | error e =>
      rw [hcommit] at h
      contradiction
  | ok state =>
      rw [hcommit] at h
      cases h
      exact ⟨hmade, hcommit⟩

/-- After a purchase the rest is on offer. -/
theorem slots_of_execute (ht : tiers.Built)
    (h : execute policy input tiers caps = .ok (plan, tiers', caps')) :
    tiers'.slots (policy.isDiscountEligible input.currency) =
      dropTokens plan.result.tokensAllocated.val
        (tiers.slots (policy.isDiscountEligible input.currency)) := by
  obtain ⟨hplan, hcommit⟩ := execute_ok h
  obtain ⟨tiers'', hfills, hslots⟩ := commitFills_of_allocate ht hplan
  rw [(commitFills_of_commitPlan hcommit).1] at hfills
  cases hfills
  exact hslots

end Plans

end TokenSale
