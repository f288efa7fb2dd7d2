import TokenSale.Proofs.Commit
import TokenSale.Proofs.Conversion
import TokenSale.Proofs.Planning
import TokenSale.Proofs.TierValidity

/-!
# TokenSale.Proofs.GreedyWalk

The walk over the tiers is the greedy one.  What is on offer is a list of
slots, the discounted part of a tier before the rest of it; a budget buys
slots whole from the front of that list and then as much of one more slot as
it still pays for.

* `TierLedger.slots` — what is on offer;
* `Greedy`, `BuysGreedily` — what a budget buys of a list of slots, one slot
  after the other and spelled out;
* `walk_eq_buy` — the walk over tiers is one over their slots;
* `walk_greedy`, `allocate_greedy` — the walk and the plan buy just that.
-/

namespace TokenSale

/-! ## what is on offer -/

/-- A part of a tier that is sold at one price. -/
structure Slot where
  index : Nat
  isDiscount : Bool
  capacity : Tokens
  price : Price

namespace Slot

/-- The fill that takes some tokens of the slot. -/
def fill (s : Slot) (tokens : Tokens) (cost : Units) : Fill :=
  ⟨s.index, s.isDiscount, tokens, cost, s.price⟩

/-- There is something to sell, at a price. -/
def IsOpen (s : Slot) : Prop := 0 < s.capacity.val ∧ s.price.isValid = true

end Slot

/-- The discounted part of a tier that is open to a purchase. -/
def Tier.offeredDiscount (t : Tier) (eligible : Bool) : Tokens :=
  if eligible then t.remainingDiscount else .zero

/-- What a tier offers: its discounted part if that is open to the purchase, and
the rest of it; parts of which nothing is left are passed over. -/
def Tier.slots (t : Tier) (eligible : Bool) (index : Nat) : List Slot :=
  [⟨index, true, t.offeredDiscount eligible, t.spec.discountPrice⟩,
    ⟨index, false, t.remaining.subClamped (t.offeredDiscount eligible), t.spec.regularPrice⟩].filter
      fun s => !s.capacity.isZero

/-- What tiers offer, from an index on. -/
def slotsFrom (eligible : Bool) : Nat → List Tier → List Slot
  | _, [] => []
  | index, t :: rest => t.slots eligible index ++ slotsFrom eligible (index + 1) rest

/-- What a ledger offers. -/
def TierLedger.slots (l : TierLedger) (eligible : Bool) : List Slot := slotsFrom eligible 0 l.tiers

/-- Both prices of a tier have both sides above zero. -/
def TierSpec.IsPriced (s : TierSpec) : Prop :=
  s.regularPrice.isValid = true ∧ s.discountPrice.isValid = true

theorem Tier.isOpen_of_mem_slots {t : Tier} {eligible : Bool} {index : Nat} {s : Slot}
    (ht : t.spec.IsPriced) (h : s ∈ t.slots eligible index) : s.IsOpen := by
  unfold slots at h
  obtain ⟨hmem, hcapacity⟩ := List.mem_filter.1 h
  have hpos : 0 < s.capacity.val := by simpa using hcapacity
  simp only [List.mem_cons, List.not_mem_nil, or_false] at hmem
  obtain rfl | rfl := hmem
  · exact ⟨hpos, ht.2⟩
  · exact ⟨hpos, ht.1⟩

theorem isOpen_of_mem_slotsFrom {eligible : Bool} {index : Nat} {tiers : List Tier} {s : Slot}
    (ht : ∀ t ∈ tiers, t.spec.IsPriced) (h : s ∈ slotsFrom eligible index tiers) : s.IsOpen := by
  induction tiers generalizing index with
  | nil => contradiction
  | cons t rest ih =>
      obtain ⟨hfirst, hrest⟩ := List.forall_mem_cons.1 ht
      rw [slotsFrom, List.mem_append] at h
      cases h with
      | inl h => exact Tier.isOpen_of_mem_slots hfirst h
      | inr h => exact ih hrest h

theorem Tier.remainingDiscount_le (t : Tier) : t.remainingDiscount.val ≤ t.remaining.val := by
  rw [remainingDiscount, Quantity.val_least]
  exact Nat.min_le_right _ _

/-- A tier of which nothing is left offers nothing. -/
theorem Tier.slots_of_isZero {t : Tier} {eligible : Bool} {index : Nat}
    (h : t.remaining.isZero = true) : t.slots eligible index = [] := by
  rw [Quantity.isZero_iff] at h
  have hdiscount := t.remainingDiscount_le
  rw [slots, List.filter_eq_nil_iff]
  cases eligible with
  | false => simp [offeredDiscount, h]
  | true =>
      simp [offeredDiscount, h]
      omega

/-! ## buying greedily -/

/-- `n` is all that a budget which does not buy a slot whole buys of it. -/
structure Slot.Splits (s : Slot) (budget n : Nat) : Prop where
  short : budget < s.price.exactCost s.capacity.val
  most : IsGreatest {m | s.price.exactCost m ≤ budget} n

/-- What a budget buys of a list of slots: each slot whole while it lasts, then
the most of one more. -/
inductive Greedy : List Slot → Nat → List Fill → Prop
  | done {budget : Nat} : Greedy [] budget []
  | whole {s : Slot} {rest : List Slot} {budget : Nat} {cost : Units} {fills : List Fill}
      (hcost : s.price.costOf s.capacity = some cost) (hle : cost.val ≤ budget)
      (h : Greedy rest (budget - cost.val) fills) :
    Greedy (s :: rest) budget (s.fill s.capacity cost :: fills)
  | split {s : Slot} {rest : List Slot} {budget : Nat} {tokens : Tokens} {cost : Units}
      (h : s.Splits budget tokens.val) (hcost : s.price.costOf tokens = some cost)
      (hpos : 0 < tokens.val) :
    Greedy (s :: rest) budget [s.fill tokens cost]
  | stop {s : Slot} {rest : List Slot} {budget : Nat} (h : s.Splits budget 0) :
    Greedy (s :: rest) budget []

/-- Without a budget nothing is bought. -/
theorem greedy_zero {slots : List Slot} (h : ∀ s ∈ slots, s.IsOpen) : Greedy slots 0 [] := by
  cases slots with
  | nil => exact .done
  | cons s rest =>
      obtain ⟨hcapacity, hprice⟩ := h s List.mem_cons_self
      refine .stop ⟨Price.exactCost_pos hprice hcapacity, ?_, fun m hm => ?_⟩
      · simp [Price.exactCost]
      · by_contra hpos
        have hcost := Price.exactCost_pos hprice (Nat.lt_of_not_le hpos)
        exact absurd hcost (Nat.not_lt.2 hm)

/-- A take is either all that was offered or the most that the budget buys. -/
theorem Take.of_ok {budget : Units} {capacity : Tokens} {price : Price} {x : Take}
    (h : Take.of budget capacity price = .ok x) :
    price.costOf x.tokens = some x.cost ∧ x.cost.val ≤ budget.val ∧
      (x.split = false ∧ x.tokens = capacity ∨
        x.split = true ∧ budget.val < price.exactCost capacity.val ∧
          IsGreatest {m | price.exactCost m ≤ budget.val} x.tokens.val) := by
  unfold Take.of at h
  split at h
  · contradiction
  next full hfull =>
  obtain ⟨htokens, hexact⟩ := Price.costOf_ok hfull
  split at h
  next hle =>
    cases h
    exact ⟨hfull, hle, .inl ⟨rfl, rfl⟩⟩
  next hlt =>
  split at h
  · contradiction
  next tokens hmost =>
  split at h
  · contradiction
  next cost hcost =>
  cases h
  have hgreatest := Price.isGreatest_tokensFor htokens hmost
  have hle : cost.val ≤ budget.val := (Price.costOf_ok hcost).2 ▸ hgreatest.1
  exact ⟨hcost, hle, .inr ⟨rfl, hexact ▸ Nat.lt_of_not_le hlt, hgreatest⟩⟩

/-! ## the walk -/

namespace Basket

/-- A walk over slots: as much of each as the budget allows, until one is split
or nothing is left to spend. -/
def buy (b : Basket) : List Slot → Except AllocationError Basket
  | [] => .ok b
  | s :: rest =>
    if b.budget.isZero then .ok b
    else
      match Take.of b.budget s.capacity s.price with
      | .error e => .error e
      | .ok x =>
        let b := b.put s.index s.isDiscount s.price x
        if x.split then .ok b else b.buy rest

/-- Goes on with more slots from where a walk has come, unless it has ended. -/
def goOn (more : List Slot) (b : Basket × Bool) : Except AllocationError Basket :=
  if b.2 then .ok b.1 else b.1.buy more

variable {b b' : Basket}

theorem buy_of_isZero (hb : b.budget.isZero = true) (slots : List Slot) : b.buy slots = .ok b := by
  cases slots with
  | nil => rfl
  | cons s rest => rw [buy, if_pos hb]

/-- With a budget the first slot is bought from, then the others. -/
theorem buy_cons_of_not_isZero (hb : b.budget.isZero = false) (s : Slot) (rest : List Slot) :
    b.buy (s :: rest) = ((Take.of b.budget s.capacity s.price).map fun x =>
      (b.put s.index s.isDiscount s.price x, x.split)).bind (goOn rest) := by
  rw [buy, if_neg (by simp [hb])]
  cases Take.of b.budget s.capacity s.price <;> rfl

/-- The rest of a tier is one slot, if anything is left of it. -/
theorem buy_rest (index : Nat) (price : Price) (left : Tokens) (b : Basket) (more : List Slot) :
    b.buy (([⟨index, false, left, price⟩].filter fun s => !s.capacity.isZero) ++ more) =
      (walkRest index price left b).bind (goOn more) := by
  unfold walkRest
  split
  next hb => exact buy_of_isZero hb _
  next hb =>
  split
  next hleft =>
    rw [List.filter_cons_of_neg (by simpa using hleft)]
    rfl
  next hleft =>
    rw [Bool.not_eq_true] at hb hleft
    rw [List.filter_cons_of_pos (by simp [hleft])]
    exact buy_cons_of_not_isZero hb _ _

/-- A tier is its slots, one after the other. -/
theorem buy_tier (eligible : Bool) (index : Nat) (t : Tier) (hb : b.budget.isZero = false)
    (more : List Slot) : b.buy (t.slots eligible index ++ more) =
      (walkTier eligible index t b).bind (goOn more) := by
  unfold walkTier Tier.slots
  split
  next hoffer =>
    simp only [Bool.and_eq_true, Bool.not_eq_true'] at hoffer
    obtain ⟨rfl, hdiscount⟩ := hoffer
    rw [List.filter_cons_of_pos (by simpa [Tier.offeredDiscount] using hdiscount),
      List.cons_append, buy_cons_of_not_isZero hb]
    simp only [Tier.offeredDiscount, if_true]
    split
    next e hx =>
      rw [hx]
      rfl
    next x hx =>
      rw [hx]
      simp only [Except.map, Except.bind, goOn]
      split
      · rfl
      next hsplit =>
        -- a take that is not split leaves what the slots say is left
        obtain ⟨-, -, ⟨-, htokens⟩ | ⟨hsplit', -⟩⟩ := Take.of_ok hx
        · rw [htokens]
          exact buy_rest ..
        · exact absurd hsplit' hsplit
  next hoffer =>
    have hnone : t.offeredDiscount eligible = .zero := by
      unfold Tier.offeredDiscount
      split
      next heligible => exact Quantity.ext (by simpa [heligible] using hoffer)
      · rfl
    have hall : t.remaining.subClamped .zero = t.remaining := Quantity.ext rfl
    rw [hnone, hall, List.filter_cons_of_neg (by simp)]
    exact buy_rest ..

end Basket

/-- **The walk over tiers is the walk over their slots.** -/
theorem walk_eq_buy (eligible : Bool) (index : Nat) (tiers : List Tier) (b : Basket) :
    walk eligible index tiers b = b.buy (slotsFrom eligible index tiers) := by
  induction tiers generalizing index b with
  | nil => rfl
  | cons t rest ih =>
      rw [walk, slotsFrom]
      split
      next hb => exact (Basket.buy_of_isZero hb _).symm
      next hb =>
      split
      next hempty =>
        rw [Tier.slots_of_isZero hempty]
        exact ih ..
      next hempty =>
        rw [Basket.buy_tier eligible index t (Bool.not_eq_true _ ▸ hb)]
        cases hw : walkTier eligible index t b with
        | error e => rfl
        | ok r =>
            obtain ⟨b', ended⟩ := r
            cases ended with
            | true => rfl
            | false => exact ih ..

/-- A walk over slots buys greedily. -/
theorem Basket.greedy_of_buy {slots : List Slot} {b b' : Basket} (hslots : ∀ s ∈ slots, s.IsOpen)
    (h : b.buy slots = .ok b') :
    ∃ fills, b'.fills = b.fills ++ fills ∧ Greedy slots b.budget.val fills := by
  induction slots generalizing b with
  | nil =>
      cases h
      exact ⟨[], by simp, .done⟩
  | cons s rest ih =>
      obtain ⟨hs, hrest⟩ := List.forall_mem_cons.1 hslots
      rw [buy] at h
      split at h
      next hb =>
        cases h
        rw [Quantity.isZero_iff.1 hb]
        exact ⟨[], by simp, greedy_zero hslots⟩
      next hb =>
      split at h
      · contradiction
      next x hx =>
      simp only at h
      obtain ⟨hcost, hle, ⟨hsplit, htokens⟩ | ⟨hsplit, hshort, hmost⟩⟩ := Take.of_ok hx
      · -- bought whole: the rest is bought from what is left
        rw [if_neg (by simp [hsplit])] at h
        obtain ⟨fills, hfills, hgreedy⟩ := ih hrest h
        have hpos : x.tokens.isZero = false := by
          rw [htokens, Quantity.isZero_eq_false_iff]
          exact hs.1
        refine ⟨s.fill x.tokens x.cost :: fills, by simp [hfills, put, hpos, Slot.fill], ?_⟩
        rw [htokens] at hcost ⊢
        exact .whole hcost hle hgreedy
      · -- split: the last fill, unless not even one token could be paid
        rw [if_pos hsplit] at h
        cases h
        have hsplits : s.Splits b.budget.val x.tokens.val := ⟨hshort, hmost⟩
        cases hzero : x.tokens.isZero with
        | true =>
            rw [Quantity.isZero_iff.1 hzero] at hsplits
            exact ⟨[], by simp [put, hzero], .stop hsplits⟩
        | false =>
            exact ⟨[s.fill x.tokens x.cost], by simp [put, hzero, Slot.fill],
              .split hsplits hcost (Quantity.isZero_eq_false_iff.1 hzero)⟩

/-- **The walk buys greedily.** -/
theorem walk_greedy {eligible : Bool} {index : Nat} {tiers : List Tier} {b b' : Basket}
    (ht : ∀ t ∈ tiers, t.spec.IsPriced) (h : walk eligible index tiers b = .ok b') :
    ∃ fills, b'.fills = b.fills ++ fills ∧
      Greedy (slotsFrom eligible index tiers) b.budget.val fills :=
  Basket.greedy_of_buy (fun _ hs => isOpen_of_mem_slotsFrom ht hs) (walk_eq_buy .. ▸ h)

/-! ## ledgers in use -/

/-- A ledger that was opened with tiers and has only recorded sales since. -/
inductive TierLedger.Built : TierLedger → Prop
  | ofSpecs {specs : List TierSpec} {l : TierLedger} (h : ofSpecs specs = .ok l) : l.Built
  | commit {l l' : TierLedger} {index : Nat} {tokens : Tokens} {discount : Bool} (hl : l.Built)
      (h : l.commit index tokens discount = .ok l') : l'.Built

theorem TierSpec.isPriced_of_fault? {s : TierSpec} (h : s.fault? = none) : s.IsPriced :=
  have hs := fault?_eq_none_iff.1 h
  ⟨Price.isValid_iff.2 hs.regular, Price.isValid_iff.2 hs.discount⟩

/-- Opened tiers are those that were checked, nothing sold. -/
theorem TierLedger.ofSpecs_ok {specs : List TierSpec} {l : TierLedger}
    (h : ofSpecs specs = .ok l) : (∀ s ∈ specs, s.fault? = none) ∧ l = ⟨specs.map .fresh⟩ := by
  obtain ⟨⟨-, hfit⟩, rfl⟩ := ofSpecs_ok_iff.1 h
  exact ⟨fun s hs => TierSpec.fault?_eq_none_iff.2 (hfit.sensible s hs), rfl⟩

/-- Nothing is wrong with the tiers of a ledger in use. -/
theorem TierLedger.Built.fault?_eq_none {l : TierLedger} (h : l.Built) :
    ∀ t ∈ l.tiers, t.spec.fault? = none := by
  have hspecs : ∀ s ∈ l.specs, s.fault? = none := by
    induction h with
    | ofSpecs h =>
        obtain ⟨hchecked, rfl⟩ := ofSpecs_ok h
        simpa [TierLedger.specs, Tier.fresh] using hchecked
    | @commit l l' index tokens discount hl h ih =>
        have hsold : l.Sold [⟨index, discount, tokens, .zero, ⟨.zero, .zero⟩⟩] l' :=
          sold_of_commit h
        rwa [hsold.specs]
  intro t ht
  exact hspecs t.spec (List.mem_map_of_mem ht)

/-- The tiers of a ledger that was opened all have valid prices. -/
theorem TierLedger.Built.isPriced {l : TierLedger} (h : l.Built) :
    ∀ t ∈ l.tiers, t.spec.IsPriced :=
  fun t ht => TierSpec.isPriced_of_fault? (h.fault?_eq_none t ht)

/-! ## plans -/

/-- Everything that a plan was computed from. -/
theorem allocate_ok {policy : AllocationPolicy} {input : AllocationInput} {tiers : TierLedger}
    {caps : CapTracker} {plan : AllocationPlan} (h : allocate policy input tiers caps = .ok plan) :
    (plan.investor = input.investor ∧ plan.investorClass = input.investorClass ∧
        plan.currency = input.currency) ∧
      input.rate.toUnits input.amount = some plan.requestedUnits ∧
      spendable caps input plan.requestedUnits = .ok plan.availableUnits ∧
      ∃ basket, walk (policy.isDiscountEligible input.currency) 0 tiers.tiers
        ⟨plan.availableUnits, []⟩ = .ok basket ∧ plan.fills = basket.fills := by
  have hplan := made_of_allocate h
  obtain ⟨left, hwalk⟩ := hplan.walked
  exact ⟨⟨hplan.investor, hplan.investorClass, hplan.currency⟩, hplan.start.worth,
    hplan.start.spendable, _, hwalk, rfl⟩

/-! ## the fills of a plan -/

/-- A fill that takes a slot whole, at the cost of all it has. -/
def Slot.BoughtWhole (s : Slot) (f : Fill) : Prop :=
  ∃ cost, s.price.costOf s.capacity = some cost ∧ f = s.fill s.capacity cost

/-- The units that fills cost. -/
def spentOn (fills : List Fill) : Nat := (fills.map fun f => f.units.val).sum

/-- What is bought of the slot at which the walk stops, with `left` still to
spend: it does not suffice for the whole slot, the fill is the most that it
pays for, if that is anything, and it does not pay for one token more. -/
def Slot.StopsAt (s : Slot) (left : Nat) (last : List Fill) : Prop :=
  left < s.price.exactCost s.capacity.val ∧
    ∃ n, IsGreatest {m | s.price.exactCost m ≤ left} n ∧
      left < s.price.exactCost n + s.price.exactCost 1 ∧
      (n = 0 ∧ last = [] ∨ 0 < n ∧ ∃ tokens cost, tokens.val = n ∧
        s.price.costOf tokens = some cost ∧ last = [s.fill tokens cost])

/-- A budget buys the slots of a prefix whole, each at its cost, then the most
of the slot behind them, and nothing else. -/
def BuysGreedily (slots : List Slot) (budget : Nat) (fills : List Fill) : Prop :=
  (∀ f ∈ fills, 0 < f.tokens.val) ∧
    ∃ bought rest whole last, slots = bought ++ rest ∧ fills = whole ++ last ∧
      List.Forall₂ Slot.BoughtWhole bought whole ∧ spentOn whole ≤ budget ∧
      match rest with
      | [] => last = []
      | s :: _ => s.StopsAt (budget - spentOn whole) last

/-- What is left of a budget does not pay for one token more. -/
theorem Slot.Splits.lt_add {s : Slot} {budget n : Nat} (h : s.Splits budget n)
    (hs : s.IsOpen) : budget < s.price.exactCost n + s.price.exactCost 1 := by
  by_contra hle
  have hmore : s.price.exactCost (n + 1) ≤ budget :=
    (Price.exactCost_add_le (Price.isValid_iff.1 hs.2).2 n 1).trans (Nat.le_of_not_lt hle)
  exact absurd (h.most.2 hmore) (Nat.not_succ_le_self n)

/-- Whatever is bought comes from a slot that is on offer, at its price. -/
theorem Greedy.exists_slot {slots : List Slot} {budget : Nat} {fills : List Fill}
    (h : Greedy slots budget fills) :
    ∀ f ∈ fills, ∃ s ∈ slots, f = s.fill f.tokens f.units ∧ s.price.costOf f.tokens = some f.units := by
  induction h with
  | done | stop => simp
  | whole hcost hle h ih =>
      rw [List.forall_mem_cons]
      refine ⟨⟨_, List.mem_cons_self, rfl, hcost⟩, fun f hf => ?_⟩
      obtain ⟨s, hs, hfill⟩ := ih f hf
      exact ⟨s, List.mem_cons_of_mem _ hs, hfill⟩
  | split h hcost hpos =>
      rw [List.forall_mem_singleton]
      exact ⟨_, List.mem_cons_self, rfl, hcost⟩

/-- No greedy fill is empty. -/
theorem Greedy.pos {slots : List Slot} {budget : Nat} {fills : List Fill}
    (h : Greedy slots budget fills) (hslots : ∀ s ∈ slots, s.IsOpen) :
    ∀ f ∈ fills, 0 < f.tokens.val := by
  induction h with
  | done | stop => simp
  | @whole s rest budget cost fills hcost hle h ih =>
      rw [List.forall_mem_cons]
      exact ⟨(hslots s List.mem_cons_self).1, ih fun s hs => hslots s (List.mem_cons_of_mem _ hs)⟩
  | split h hcost hpos => simpa [Slot.fill] using hpos

/-- Greedy fills take whole slots, and part of the last one only. -/
theorem Greedy.buysGreedily {slots : List Slot} {budget : Nat} {fills : List Fill}
    (h : Greedy slots budget fills) (hslots : ∀ s ∈ slots, s.IsOpen) :
    BuysGreedily slots budget fills := by
  refine ⟨h.pos hslots, ?_⟩
  induction h with
  | done => exact ⟨[], [], [], [], rfl, rfl, .nil, Nat.zero_le _, rfl⟩
  | @whole s rest budget cost fills hcost hle h ih =>
      obtain ⟨bought, rest', whole, last, rfl, rfl, hwhole, hspent, hlast⟩ :=
        ih fun s hs => hslots s (List.mem_cons_of_mem _ hs)
      have hsum : spentOn (s.fill s.capacity cost :: whole) = cost.val + spentOn whole := by
        simp [spentOn, Slot.fill]
      refine ⟨s :: bought, rest', s.fill s.capacity cost :: whole, last, rfl, rfl,
        .cons ⟨cost, hcost, rfl⟩ hwhole, ?_, ?_⟩
      · omega
      · rwa [hsum, ← Nat.sub_sub]
  | @split s rest budget tokens cost h hcost hpos =>
      exact ⟨[], s :: rest, [], _, rfl, rfl, .nil, Nat.zero_le _, h.short, tokens.val, h.most,
        h.lt_add (hslots s List.mem_cons_self), .inr ⟨hpos, tokens, cost, rfl, hcost, rfl⟩⟩
  | @stop s rest budget h =>
      exact ⟨[], s :: rest, [], [], rfl, rfl, .nil, Nat.zero_le _, h.short, 0, h.most,
        h.lt_add (hslots s List.mem_cons_self), .inl ⟨rfl, rfl⟩⟩

/-- **A plan is what a greedy walk buys** with the units that the investor may
spend. -/
theorem allocate_greedy {policy : AllocationPolicy} {input : AllocationInput} {tiers : TierLedger}
    {caps : CapTracker} {plan : AllocationPlan} (ht : tiers.Built)
    (h : allocate policy input tiers caps = .ok plan) :
    input.rate.toUnits input.amount = some plan.requestedUnits ∧
      spendable caps input plan.requestedUnits = .ok plan.availableUnits ∧
      BuysGreedily (tiers.slots (policy.isDiscountEligible input.currency))
        plan.availableUnits.val plan.fills := by
  obtain ⟨-, hrequested, havailable, basket, hwalk, hfills⟩ := allocate_ok h
  obtain ⟨fills, hbasket, hgreedy⟩ := walk_greedy ht.isPriced hwalk
  have hplan : plan.fills = fills := by simpa [hbasket] using hfills
  rw [hplan]
  exact ⟨hrequested, havailable,
    hgreedy.buysGreedily fun s hs => isOpen_of_mem_slotsFrom ht.isPriced hs⟩

/-- Two tiers of ten tokens; four of the first come at half its price. -/
def Sample.tiers : TierLedger :=
  ⟨[.fresh ((TierSpec.regular ⟨⟨2, by decide⟩, .one⟩ ⟨10, by decide⟩).withDiscount
      ⟨.one, .one⟩ ⟨4, by decide⟩),
    .fresh (.regular ⟨⟨3, by decide⟩, .one⟩ ⟨10, by decide⟩)]⟩

theorem Sample.built_tiers : Sample.tiers.Built :=
  .ofSpecs (show TierLedger.ofSpecs Sample.tiers.specs = .ok Sample.tiers by rfl)

/-- Twenty units to spend. -/
def Sample.payment : AllocationInput where
  investor := ⟨"alice"⟩
  investorClass := .accredited
  currency := .ofText "USD"
  amount := ⟨20, by decide⟩
  rate := ⟨.one, .one, default⟩
  minTokens := none

/-- They buy the first tier whole, its discounted part first, and one token of
the second. -/
theorem allocate_greedy_two_tiers : ∃ plan,
    allocate ⟨.one, some (.ofText "USD")⟩ Sample.payment Sample.tiers (.withLimit .zero) =
      .ok plan ∧
    (plan.fills.map fun f => (f.tierIndex, f.isDiscount, f.tokens.val)) =
      [(0, true, 4), (0, false, 6), (1, false, 1)] ∧
    BuysGreedily (Sample.tiers.slots true) plan.availableUnits.val plan.fills := by
  have hbuilt : Sample.tiers.Built :=
    .ofSpecs (show TierLedger.ofSpecs Sample.tiers.specs = .ok Sample.tiers by rfl)
  obtain ⟨plan, hplan⟩ : ∃ plan, allocate ⟨.one, some (.ofText "USD")⟩ Sample.payment Sample.tiers
      (.withLimit .zero) = .ok plan := ⟨_, rfl⟩
  refine ⟨plan, hplan, ?_, (allocate_greedy hbuilt hplan).2.2⟩
  cases hplan
  rfl

end TokenSale
