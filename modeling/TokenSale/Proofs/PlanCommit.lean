import TokenSale.Proofs.PlanAccounting
import TokenSale.Proofs.PurchaseStream
import TokenSale.Proofs.TierDraws

/-!
# TokenSale.Proofs.PlanCommit

The committing of a plan, whoever made it and wherever.  The fills draw from the
tiers one after the other, and a refusal may come at any of them or only at the
limit of the investor; either way nothing has changed.  What decides is whether
all of the plan fits: the fills of each tier together into what is left there,
and the purchase into the sums of its investor.

* `TierLedger.HasRoomFor`, `commitFills_ok_iff` — fills that fit;
* `commitPlan_ok_iff` — a plan that fits, and so may its investor;
* `commitPlan_of_allocate` — a plan fits where it was made;
* `Stock.commit_all_or_nothing` — all of a plan, or nothing of it.
-/

namespace TokenSale

/-! ## tiers -/

/-- The fills of each tier together fit into what is left of it, and those from
its discounted part into what is left of that. -/
structure TierLedger.HasRoomFor (l : TierLedger) (fills : List Fill) : Prop where
  inRange : ∀ f ∈ fills, f.tierIndex < l.tiers.length
  total : ∀ i t, l.tiers[i]? = some t →
    t.totalSold.val + soldOf fills i ≤ t.spec.totalCapacity.val
  discount : ∀ i t, l.tiers[i]? = some t →
    t.discountSold.val + discountSoldOf fills i ≤ t.spec.discountCapacity.val

namespace TierLedger

variable {l l' : TierLedger} {f : Fill} {fills : List Fill}

/-- What has been sold had room. -/
theorem Sold.hasRoomFor (h : l.Sold fills l') (hl : l'.Within) : l.HasRoomFor fills := by
  have hafter (i : Nat) (t : Tier) (ht : l.tiers[i]? = some t) :
      ∃ t' ∈ l'.tiers, t.Sold fills i t' := by
    have hi : i < l'.tiers.length := h.size ▸ (List.getElem?_eq_some_iff.1 ht).1
    obtain ⟨u, hu, hsold⟩ := h.tier i l'.tiers[i] (List.getElem?_eq_getElem hi)
    rw [ht, Option.some.injEq] at hu
    exact ⟨l'.tiers[i], List.getElem_mem hi, hu ▸ hsold⟩
  refine ⟨h.inRange, fun i t ht => ?_, fun i t ht => ?_⟩
  · obtain ⟨t', ht', hsold⟩ := hafter i t ht
    rw [← hsold.totalSold, ← hsold.spec]
    exact (hl t' ht').totalSold_le
  · obtain ⟨t', ht', hsold⟩ := hafter i t ht
    rw [← hsold.discountSold, ← hsold.spec]
    exact (hl t' ht').discountSold_le

/-- Where all fills have room, so has the first. -/
theorem HasRoomFor.head (h : l.HasRoomFor (f :: fills)) :
    ∃ l', l.commit f.tierIndex f.tokens f.isDiscount = .ok l' := by
  have hi : f.tierIndex < l.tiers.length := h.inRange f List.mem_cons_self
  have ht : l.tiers[f.tierIndex]? = some l.tiers[f.tierIndex] := List.getElem?_eq_getElem hi
  have htotal := h.total _ _ ht
  have hdiscount := h.discount _ _ ht
  rw [soldOf_cons, if_pos rfl] at htotal
  rw [discountSoldOf_cons] at hdiscount
  have hroom : f.tokens.val ≤ l.tiers[f.tierIndex].room f.isDiscount := by
    unfold Tier.room
    split
    next hband =>
      rw [if_pos ⟨rfl, hband⟩] at hdiscount
      omega
    next => omega
  obtain ⟨t', hsell, -⟩ := Tier.sell?_of_le hroom
  exact ⟨⟨l.tiers.set f.tierIndex t'⟩, by simp only [commit, ht, hsell]⟩

/-- And the others have room behind it. -/
theorem HasRoomFor.tail (h : l.HasRoomFor (f :: fills))
    (hc : l.commit f.tierIndex f.tokens f.isDiscount = .ok l') : l'.HasRoomFor fills := by
  have hsold := sold_of_commit hc
  refine ⟨fun g hg => ?_, fun i t' ht' => ?_, fun i t' ht' => ?_⟩
  · rw [hsold.size]
    exact h.inRange g (List.mem_cons_of_mem _ hg)
  · obtain ⟨t, ht, htier⟩ := hsold.tier i t' ht'
    have htotal := h.total i t ht
    rw [← List.singleton_append, soldOf_append] at htotal
    rw [htier.totalSold, htier.spec]
    omega
  · obtain ⟨t, ht, htier⟩ := hsold.tier i t' ht'
    have hdiscount := h.discount i t ht
    rw [← List.singleton_append, discountSoldOf_append] at hdiscount
    rw [htier.discountSold, htier.spec]
    omega

end TierLedger

/-- **Fills are committed just if they fit, all together**: the order in which
they draw from a tier does not matter. -/
theorem commitFills_ok_iff {l : TierLedger} {fills : List Fill} (hl : l.Within) :
    (∃ l', commitFills l fills = .ok l') ↔ l.HasRoomFor fills := by
  constructor
  · rintro ⟨l', h⟩
    exact (commitFills_ok h).hasRoomFor (hl.commitFills h)
  · intro h
    clear hl
    induction fills generalizing l with
    | nil => exact ⟨l, rfl⟩
    | cons f fs ih =>
        obtain ⟨l₁, h₁⟩ := h.head
        obtain ⟨l', h'⟩ := ih (h.tail h₁)
        exact ⟨l', commitFills_cons_ok_iff.2 ⟨l₁, h₁, h'⟩⟩

/-! ## plans -/

section Plans

variable {policy : AllocationPolicy} {input : AllocationInput} {tiers : TierLedger}
  {caps : CapTracker} {plan : AllocationPlan}

/-- A plan is committed just if it fits, into the tiers and into the sums of its
investor. -/
theorem commitPlan_ok_iff (ht : tiers.Within) :
    (∃ tiers' caps', commitPlan plan tiers caps = .ok (tiers', caps')) ↔
      tiers.HasRoomFor plan.fills ∧ caps.CanTake plan.investor plan.result.unitsConsumed
        plan.investorClass plan.result.tokensAllocated := by
  rw [← commitFills_ok_iff ht, ← CapTracker.commitSpend_ok_iff]
  constructor
  · rintro ⟨tiers', caps', h⟩
    obtain ⟨hfills, hspend⟩ := commitFills_of_commitPlan h
    exact ⟨⟨tiers', hfills⟩, caps', hspend⟩
  · rintro ⟨⟨tiers', hfills⟩, caps', hspend⟩
    exact ⟨tiers', caps', by simp only [commitPlan, hfills, hspend]⟩

/-- **A plan can be committed where it was made**, unless the sums of its
investor leave the range of amounts. -/
theorem commitPlan_of_allocate (ht : tiers.Built)
    (h : allocate policy input tiers caps = .ok plan) :
    (∃ tiers' caps', commitPlan plan tiers caps = .ok (tiers', caps')) ∨
      commitPlan plan tiers caps = .error (.overflow .capCommit) := by
  obtain ⟨tiers', hfills, -⟩ := commitFills_of_allocate ht h
  have hplan := made_of_allocate h
  unfold commitPlan
  simp only [hfills]
  cases hspend : caps.commitSpend plan.investor plan.result.unitsConsumed plan.investorClass
      plan.result.tokensAllocated with
  | ok caps' => exact .inl ⟨tiers', caps', rfl⟩
  | error e =>
      -- the plan has kept to what the limit leaves
      have hoverflow : e = .overflow plan.investor := by
        refine CapTracker.commitSpend_error_of_le (fun hclass => ?_) hspend
        rw [hplan.investor]
        exact consumed_le_limit ht h (hplan.investorClass ▸ hclass)
      subst hoverflow
      exact .inr rfl

end Plans

/-! ## tiers and investors together -/

namespace Stock

variable {s s' : Stock} {plan : AllocationPlan}

/-- The answer to the commit of a plan, and what is left behind. -/
def commit (s : Stock) (plan : AllocationPlan) : Except AllocationError Unit × Stock :=
  match commitPlan plan s.tiers s.caps with
  | .ok (tiers, caps) => (.ok (), ⟨tiers, caps⟩)
  | .error e => (.error e, s)

/-- What a plan adds, and that it adds nothing else. -/
structure Gains (plan : AllocationPlan) (s s' : Stock) : Prop where
  /-- Each tier has sold the tokens of its fills, of its discounted part those of
  its discounted fills. -/
  tiers : s.tiers.Sold plan.fills s'.tiers
  /-- The investor has made one more purchase, as one of the plan's class. -/
  investor : ∃ state, s'.caps.state? plan.investor = some state ∧
    s.caps.Adds plan.investor plan.result.unitsConsumed plan.investorClass
      plan.result.tokensAllocated state
  /-- Nobody else and no limit is concerned. -/
  others : ∀ i, i ≠ plan.investor → s'.caps.state? i = s.caps.state? i
  limit : s'.caps.nonAccreditedLimit = s.caps.nonAccreditedLimit
  overrides : s'.caps.overrides = s.caps.overrides

/-- What a committed plan adds to the tiers and to the account of its investor. -/
theorem gains_of_commitPlan
    (h : commitPlan plan s.tiers s.caps = .ok (s'.tiers, s'.caps)) : s.Gains plan s' := by
  obtain ⟨hsold, hspend⟩ := commitPlan_ok h
  obtain ⟨state, hcaps, hadds⟩ := CapTracker.commitSpend_ok hspend
  refine ⟨hsold, ⟨state, ?_, hadds⟩, fun i hi => ?_, by rw [hcaps], by rw [hcaps]⟩
  · rw [hcaps, CapTracker.state?_insert, if_pos rfl]
  · rw [hcaps, CapTracker.state?_insert, if_neg hi]

/-- A commit is refused, or it has changed the stock. -/
theorem commit_cases (s : Stock) (plan : AllocationPlan) :
    (∃ e, commitPlan plan s.tiers s.caps = .error e ∧ s.commit plan = (.error e, s)) ∨
      ∃ s' : Stock, commitPlan plan s.tiers s.caps = .ok (s'.tiers, s'.caps) ∧
        s.commit plan = (.ok (), s') := by
  unfold commit
  split
  next tiers caps h => exact .inr ⟨⟨tiers, caps⟩, h, rfl⟩
  next e h => exact .inl ⟨e, h, rfl⟩

/-- What comes of the commit of a plan: all of it, or nothing. -/
structure CommitsWhole (s : Stock) (plan : AllocationPlan) : Prop where
  /-- A refusal leaves everything as it was. -/
  refused : ∀ e, (s.commit plan).1 = .error e → (s.commit plan).2 = s
  /-- Otherwise the plan is added. -/
  accepted : (s.commit plan).1 = .ok () → s.Gains plan (s.commit plan).2
  /-- No tier sells more than it has, however many fills draw from it. -/
  within : s.tiers.Within → (s.commit plan).2.tiers.Within
  /-- What decides is whether all of the plan fits. -/
  accepted_iff : s.tiers.Within → ((s.commit plan).1 = .ok () ↔
    s.tiers.HasRoomFor plan.fills ∧ s.caps.CanTake plan.investor plan.result.unitsConsumed
      plan.investorClass plan.result.tokensAllocated)
  /-- Where the plan was made, only a sum of its investor can overflow. -/
  fresh : s.tiers.Built → ∀ policy input, allocate policy input s.tiers s.caps = .ok plan →
    ∀ e, (s.commit plan).1 = .error e → e = .overflow .capCommit

/-- **A plan is committed whole or not at all**, whoever made it and wherever. -/
theorem commit_all_or_nothing (s : Stock) (plan : AllocationPlan) : s.CommitsWhole plan := by
  obtain ⟨e, hplan, hcommit⟩ | ⟨s', hplan, hcommit⟩ := s.commit_cases plan
  · refine ⟨fun _ _ => by rw [hcommit], fun h => ?_, fun hwithin => ?_, fun hwithin => ?_,
      fun hbuilt policy input hmade e' he => ?_⟩
    · rw [hcommit] at h
      contradiction
    · rw [hcommit]
      exact hwithin
    · rw [← commitPlan_ok_iff hwithin, hcommit, hplan]
      simp
    · rw [hcommit, Except.error.injEq] at he
      subst he
      obtain ⟨tiers', caps', hok⟩ | hoverflow := commitPlan_of_allocate hbuilt hmade
      · rw [hplan] at hok
        contradiction
      · rw [hplan, Except.error.injEq] at hoverflow
        exact hoverflow
  · refine ⟨fun e h => ?_, fun _ => ?_, fun hwithin => ?_, fun hwithin => ?_,
      fun _ _ _ _ e h => ?_⟩
    · rw [hcommit] at h
      contradiction
    · rw [hcommit]
      exact gains_of_commitPlan hplan
    · rw [hcommit]
      exact hwithin.commitFills (commitFills_of_commitPlan hplan).1
    · rw [← commitPlan_ok_iff hwithin, hcommit]
      exact iff_of_true rfl ⟨_, _, hplan⟩
    · rw [hcommit] at h
      contradiction

end Stock

/-- A plan made by hand: two fills of one tier, the second at the discount. -/
def Sample.byHand (first second : Tokens) : AllocationPlan where
  investor := ⟨"bob"⟩
  investorClass := .nonAccredited
  currency := .ofText "USD"
  amount := .one
  rate := ⟨.one, .one, default⟩
  requestedUnits := .one
  availableUnits := .one
  fills := [⟨0, false, first, .one, ⟨.one, .one⟩⟩, ⟨0, true, second, .one, ⟨.one, .one⟩⟩]
  result := ⟨.one, .one, .one, .zero⟩

/-- Of ten tokens, six and four are sold, seven and four are not, and the seven
are not kept; and a plan made for somebody who can spend no more overflows. -/
theorem commit_all_or_nothing_by_hand :
    let s : Stock := ⟨Sample.tiers, .withLimit .one⟩
    let spent : CapState := ⟨.accredited, .max, .zero, 1⟩
    let full : Stock := { s with
      caps := { s.caps with investors := s.caps.investors.insert Sample.payment.investor spent } }
    s.Gains (Sample.byHand ⟨6, by decide⟩ ⟨4, by decide⟩)
      (s.commit (Sample.byHand ⟨6, by decide⟩ ⟨4, by decide⟩)).2 ∧
    s.commit (Sample.byHand ⟨7, by decide⟩ ⟨4, by decide⟩) =
      (.error (.capacityExceeded (.capacityExceeded 0 ⟨4, by decide⟩ ⟨3, by decide⟩)), s) ∧
    ∃ plan, allocate ⟨.one, none⟩ Sample.payment full.tiers full.caps = .ok plan ∧
      full.commit plan = (.error (.overflow .capCommit), full) := by
  intro s spent full
  refine ⟨(s.commit_all_or_nothing _).accepted rfl, ?_, ?_⟩
  · exact Prod.ext rfl ((s.commit_all_or_nothing _).refused _ rfl)
  · obtain ⟨plan, hplan⟩ : ∃ plan, allocate ⟨.one, none⟩ Sample.payment full.tiers full.caps =
        .ok plan := ⟨_, rfl⟩
    have hwhole := full.commit_all_or_nothing plan
    obtain ⟨e, he⟩ : ∃ e, (full.commit plan).1 = .error e := by
      cases hplan
      exact ⟨_, rfl⟩
    have hoverflow := hwhole.fresh Sample.built_tiers _ _ hplan e he
    exact ⟨plan, hplan, Prod.ext (hoverflow ▸ he) (hwhole.refused e he)⟩

end TokenSale
