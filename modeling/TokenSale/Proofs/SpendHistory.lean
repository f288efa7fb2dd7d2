import TokenSale.Proofs.Commit
import TokenSale.Proofs.Planning

/-!
# TokenSale.Proofs.SpendHistory

What a plan is shown of a limit and what is enforced when it is committed are
two computations over the same sums.  They agree in every state that a tracker
can come to: limits may be changed at any time, also below what has been spent.

* `CapCall`, `CapTracker.call` — one call, which may be refused;
* `CapTracker.Admits` — the room that is shown is the room that there is;
* `CapTracker.Spares` — what a call leaves as it was;
* `CapTracker.Records`, `Records.afterCalls` — the sums are those of the spends
  that were recorded;
* `caps_agree` — all of it, after every sequence of calls.
-/

namespace TokenSale

/-! ## calls -/

/-- A purchase as the running sums see it. -/
structure Spend where
  investor : InvestorId
  units : Units
  investorClass : InvestorClass
  tokens : Tokens
  deriving DecidableEq

/-- Whatever changes a tracker. -/
inductive CapCall where
  | setLimit (limit : Units)
  | setOverride (investor : InvestorId) (limit : Units)
  | clearOverride (investor : InvestorId)
  | spend (s : Spend)
  deriving DecidableEq

namespace CapCall

/-- The investor that a call is about; the limit of the sale is about nobody. -/
def investor? : CapCall → Option InvestorId
  | setLimit _ => none
  | setOverride i _ => some i
  | clearOverride i => some i
  | spend s => some s.investor

/-- The spend that a call asks for. -/
def spend? : CapCall → Option Spend
  | spend s => some s
  | _ => none

end CapCall

namespace CapTracker

variable {c c' : CapTracker} {i : InvestorId} {units : Units} {tokens : Tokens}

/-- The answer to a call and the tracker after it. -/
def call (c : CapTracker) : CapCall → Except CapError Unit × CapTracker
  | .setLimit limit => (.ok (), c.setLimit limit)
  | .setOverride i limit => (.ok (), c.setOverride i limit)
  | .clearOverride i => (.ok (), c.clearOverride i)
  | .spend s =>
    match c.commitSpend s.investor s.units s.investorClass s.tokens with
    | .error e => (.error e, c)
    | .ok c' => (.ok (), c')

/-- The tracker after calls, one after the other. -/
def afterCalls (c : CapTracker) (calls : List CapCall) : CapTracker :=
  calls.foldl (fun c x => (c.call x).2) c

/-- Those of the spends that were recorded. -/
def recorded (c : CapTracker) : List CapCall → List Spend
  | [] => []
  | x :: calls =>
    match c.call x with
    | (.ok (), c') => x.spend?.toList ++ c'.recorded calls
    | (.error _, c') => c'.recorded calls

@[simp] theorem afterCalls_cons (c : CapTracker) (x : CapCall) (calls : List CapCall) :
    c.afterCalls (x :: calls) = (c.call x).2.afterCalls calls := rfl

/-! ## the room that is shown -/

/-- What the limit shows of a spend that is not accredited is what it does. -/
structure Admits (c : CapTracker) (i : InvestorId) (units : Units) (tokens : Tokens) : Prop where
  /-- A spend is recorded just if it keeps to the room that is shown and the
  tokens bought stay in the range of amounts. -/
  recorded_iff : (∃ c', c.commitSpend i units .nonAccredited tokens = .ok c') ↔
    (∃ room, c.headroom i .nonAccredited = .ok (some room) ∧ units ≤ room) ∧
      (c.tokensBought i).val + tokens.val < Quantity.limit
  /-- Within that room nothing but the tokens bought can overflow. -/
  overflow : ∀ room e, c.headroom i .nonAccredited = .ok (some room) → units ≤ room →
    c.commitSpend i units .nonAccredited tokens = .error e → e = .overflow i ∧
      Quantity.limit ≤ (c.tokensBought i).val + tokens.val
  /-- What is recorded is taken out of the room; whoever uses it up is refused. -/
  left : ∀ c' room, c.commitSpend i units .nonAccredited tokens = .ok c' →
    c.headroom i .nonAccredited = .ok (some room) →
      c'.headroom i .nonAccredited =
        if units = room then
          .error (.capExceeded i (c.effectiveLimit i) (c'.currentSpend i) .zero)
        else .ok (some (room.subClamped units))

/-- Room is shown to whoever has spent less than their limit. -/
theorem headroom_eq_some_iff {room : Units} : c.headroom i .nonAccredited = .ok (some room) ↔
    (c.currentSpend i).val + room.val = (c.effectiveLimit i).val ∧ 0 < room.val := by
  rw [headroom_nonAccredited]
  split
  next hless =>
    rw [Quantity.lt_iff] at hless
    simp only [Except.ok.injEq, Option.some.injEq, Quantity.ext_iff, Quantity.val_subClamped]
    omega
  next hless =>
    rw [Quantity.lt_iff] at hless
    refine iff_of_false (by simp) ?_
    omega

/-- There is room for a spend exactly if the limit covers it with what was spent. -/
theorem exists_headroom_iff (hpos : 0 < units.val) :
    (∃ room, c.headroom i .nonAccredited = .ok (some room) ∧ units ≤ room) ↔
      (c.currentSpend i).val + units.val ≤ (c.effectiveLimit i).val := by
  constructor
  · rintro ⟨room, hroom, hle⟩
    rw [headroom_eq_some_iff] at hroom
    rw [Quantity.le_iff] at hle
    omega
  · intro hle
    refine ⟨(c.effectiveLimit i).subClamped (c.currentSpend i), headroom_eq_some_iff.2 ?_, ?_⟩
    · rw [Quantity.val_subClamped]
      omega
    · rw [Quantity.le_iff, Quantity.val_subClamped]
      omega

/-- **The room that is shown is the room that there is.** -/
theorem admits (c : CapTracker) (i : InvestorId) (hpos : 0 < units.val) (tokens : Tokens) :
    c.Admits i units tokens := by
  have hlimit := (c.effectiveLimit i).val_lt
  refine ⟨?_, fun room e hroom hle herror => ?_, fun c' room hcommit hroom => ?_⟩
  · rw [exists_headroom_iff hpos, commitSpend_ok_iff]
    constructor
    · exact fun h => ⟨h.limit rfl, h.bought_lt⟩
    · exact fun ⟨hspend, htokens⟩ => ⟨by omega, htokens, fun _ => hspend⟩
  · have hspend := (exists_headroom_iff hpos).1 ⟨room, hroom, hle⟩
    refine ⟨commitSpend_error_of_le (fun _ => hspend) herror, Nat.le_of_not_lt fun htokens => ?_⟩
    obtain ⟨c', hcommit⟩ := commitSpend_ok_iff.2
      (show c.CanTake i units .nonAccredited tokens from ⟨by omega, htokens, fun _ => hspend⟩)
    rw [hcommit] at herror
    contradiction
  · obtain ⟨hsame, hinvested⟩ := limits_of_commitSpend hcommit
    have hle := commitSpend_le hcommit
    rw [headroom_eq_some_iff] at hroom
    rw [headroom_nonAccredited, hsame]
    simp only [Quantity.lt_iff, hinvested, Quantity.ext_iff]
    split
    next hless =>
      rw [if_neg (by omega), Except.ok.injEq, Option.some.injEq, Quantity.ext_iff,
        Quantity.val_subClamped, Quantity.val_subClamped, hinvested]
      omega
    next hless => rw [if_pos (by omega)]

/-! ## one call -/

/-- What a call leaves as it was. -/
structure Spares (c : CapTracker) (x : CapCall) : Prop where
  /-- A call that is refused changes nothing. -/
  refused : ∀ e, (c.call x).1 = .error e → (c.call x).2 = c
  /-- Changes of limits leave all running sums. -/
  sums : x.spend? = none → (c.call x).2.investors = c.investors
  /-- Spends leave all limits. -/
  limits : ∀ s, x.spend? = some s → (c.call x).2.effectiveLimit = c.effectiveLimit
  /-- Whoever a call is not about keeps their sums and their own limit. -/
  others : ∀ i, x.investor? ≠ some i →
    (c.call x).2.state? i = c.state? i ∧ (c.call x).2.overrides.get? i = c.overrides.get? i

/-- A spend is recorded or refused, and everything else concerns limits only. -/
theorem call_cases (c : CapTracker) (x : CapCall) :
    (∃ s c', x = .spend s ∧ c.commitSpend s.investor s.units s.investorClass s.tokens = .ok c' ∧
      c.call x = (.ok (), c')) ∨
    (∃ e, c.call x = (.error e, c)) ∨
    x.spend? = none ∧ ∃ c', c.call x = (.ok (), c') ∧ c'.investors = c.investors := by
  cases x with
  | setLimit limit => exact .inr (.inr ⟨rfl, _, rfl, rfl⟩)
  | setOverride i limit => exact .inr (.inr ⟨rfl, _, rfl, rfl⟩)
  | clearOverride i => exact .inr (.inr ⟨rfl, _, rfl, rfl⟩)
  | spend s =>
      cases hcommit : c.commitSpend s.investor s.units s.investorClass s.tokens with
      | error e => exact .inr (.inl ⟨e, by simp only [call, hcommit]⟩)
      | ok c' => exact .inl ⟨s, c', rfl, hcommit, by simp only [call, hcommit]⟩

/-- A call about one investor leaves the limits set for others. -/
theorem overrides_call {x : CapCall} (h : x.investor? ≠ some i) :
    (c.call x).2.overrides.get? i = c.overrides.get? i := by
  cases x with
  | setLimit limit => rfl
  | setOverride j limit => exact Directory.get?_insert_ne _ (fun hij => h (congrArg some hij.symm)) _
  | clearOverride j => exact Directory.get?_erase_ne _ fun hij => h (congrArg some hij.symm)
  | spend s =>
      obtain ⟨s', c', hs, hcommit, hcall⟩ | ⟨e, hcall⟩ | ⟨hnone, -⟩ := c.call_cases (.spend s)
      · obtain ⟨state, rfl, -⟩ := commitSpend_ok hcommit
        rw [hcall]
      · rw [hcall]
      · contradiction

/-- Every call spares what it is not about. -/
theorem spares (c : CapTracker) (x : CapCall) : c.Spares x := by
  obtain ⟨s, c', rfl, hcommit, hcall⟩ | ⟨e, hcall⟩ | ⟨hnone, c', hcall, hsums⟩ := c.call_cases x
  · refine ⟨fun e he => ?_, nofun, fun _ _ => ?_, fun i hi => ⟨?_, overrides_call hi⟩⟩
    · rw [hcall] at he
      contradiction
    · rw [hcall, (limits_of_commitSpend hcommit).1]
    · obtain ⟨state, rfl, -⟩ := commitSpend_ok hcommit
      rw [hcall]
      exact (state?_insert ..).trans (if_neg fun his => hi (congrArg some his.symm))
  · have hsame : (c.call x).2 = c := by rw [hcall]
    refine ⟨fun _ _ => hsame, fun _ => by rw [hsame], fun _ _ => by rw [hsame], fun i _ => ?_⟩
    rw [hsame]
    exact ⟨rfl, rfl⟩
  · refine ⟨fun e he => ?_, fun _ => by rw [hcall, hsums], fun s hs => ?_,
      fun i hi => ⟨?_, overrides_call hi⟩⟩
    · rw [hcall] at he
      contradiction
    · rw [hnone] at hs
      contradiction
    · rw [hcall, state?, hsums]
      rfl

/-! ## all calls -/

/-- The spends of an investor. -/
def spendsOf (spends : List Spend) (i : InvestorId) : List Spend :=
  spends.filter fun s => s.investor = i

/-- The running sums are those of the spends that were recorded. -/
structure Records (c : CapTracker) (spends : List Spend) : Prop where
  currentSpend : ∀ i, (c.currentSpend i).val = ((spendsOf spends i).map fun s => s.units.val).sum
  tokensBought : ∀ i, (c.tokensBought i).val = ((spendsOf spends i).map fun s => s.tokens.val).sum

theorem records_withLimit (limit : Units) : (withLimit limit).Records [] :=
  ⟨fun _ => rfl, fun _ => rfl⟩

/-- A spend adds to the sum of its investor and to no other. -/
theorem sum_spendsOf_append (f : Spend → Nat) (spends : List Spend) (s : Spend) (i : InvestorId) :
    ((spendsOf (spends ++ [s]) i).map f).sum =
      ((spendsOf spends i).map f).sum + if i = s.investor then f s else 0 := by
  by_cases hi : i = s.investor
  · simp [spendsOf, hi]
  · simp [spendsOf, hi, Ne.symm hi]

variable {spends : List Spend}

/-- **An accepted spend is recorded.** -/
theorem Records.commitSpend (h : c.Records spends) {s : Spend}
    (hcommit : c.commitSpend s.investor s.units s.investorClass s.tokens = .ok c') :
    c'.Records (spends ++ [s]) := by
  have hsums := sums_of_commitSpend hcommit
  refine ⟨fun i => ?_, fun i => ?_⟩
  · rw [(hsums i).1, h.currentSpend i]
    exact (sum_spendsOf_append (fun s => s.units.val) spends s i).symm
  · rw [(hsums i).2.1, h.tokensBought i]
    exact (sum_spendsOf_append (fun s => s.tokens.val) spends s i).symm

/-- What is recorded does not depend on the limits. -/
theorem Records.of_investors (h : c.Records spends) (hsame : c'.investors = c.investors) :
    c'.Records spends := by
  refine ⟨fun i => ?_, fun i => ?_⟩
  · rw [← h.currentSpend i, CapTracker.currentSpend, state?, hsame]
    rfl
  · rw [← h.tokensBought i, CapTracker.tokensBought, state?, hsame]
    rfl

/-- **Whatever is called, the running sums are those of what was recorded.** -/
theorem Records.afterCalls (h : c.Records spends) (calls : List CapCall) :
    (c.afterCalls calls).Records (spends ++ c.recorded calls) := by
  induction calls generalizing c spends with
  | nil => simpa [recorded, CapTracker.afterCalls] using h
  | cons x calls ih =>
      rw [afterCalls_cons, recorded]
      obtain ⟨s, c', rfl, hcommit, hcall⟩ | ⟨e, hcall⟩ | ⟨hnone, c', hcall, hsums⟩ :=
        c.call_cases x
      · simpa [hcall, CapCall.spend?] using ih (h.commitSpend hcommit)
      · simpa [hcall] using ih h
      · simpa [hcall, hnone] using ih (h.of_investors hsums)

end CapTracker

/-- **The limit that a plan is shown and the limit that is enforced agree** in
every state that a tracker comes to. -/
theorem caps_agree (limit : Units) (calls : List CapCall) :
    (∀ i units tokens, 0 < units.val →
      ((CapTracker.withLimit limit).afterCalls calls).Admits i units tokens) ∧
    ((CapTracker.withLimit limit).afterCalls calls).Records
      ((CapTracker.withLimit limit).recorded calls) ∧
    ∀ x, ((CapTracker.withLimit limit).afterCalls calls).Spares x :=
  ⟨fun i _ tokens hpos => CapTracker.admits _ i hpos tokens,
    (CapTracker.records_withLimit limit).afterCalls calls, CapTracker.spares _⟩

/-- Fourteen of twenty units are spent, the limit falls to eleven, a spend is
refused, and a limit of their own gives the investor four units more. -/
def Sample.capCalls : List CapCall :=
  [.spend ⟨⟨"alice"⟩, ⟨14, by decide⟩, .nonAccredited, ⟨14, by decide⟩⟩,
    .setLimit ⟨11, by decide⟩,
    .spend ⟨⟨"alice"⟩, .one, .nonAccredited, .one⟩,
    .setOverride ⟨"alice"⟩ ⟨18, by decide⟩]

/-- These four units may be spent, and five may not. -/
theorem caps_agree_lowered_limit :
    ((CapTracker.withLimit ⟨20, by decide⟩).afterCalls Sample.capCalls).headroom ⟨"alice"⟩
      .nonAccredited = .ok (some ⟨4, by decide⟩) ∧
    (∃ c', ((CapTracker.withLimit ⟨20, by decide⟩).afterCalls Sample.capCalls).commitSpend
      ⟨"alice"⟩ ⟨4, by decide⟩ .nonAccredited .one = .ok c') ∧
    (¬ ∃ c', ((CapTracker.withLimit ⟨20, by decide⟩).afterCalls Sample.capCalls).commitSpend
      ⟨"alice"⟩ ⟨5, by decide⟩ .nonAccredited .one = .ok c') ∧
    (((CapTracker.withLimit ⟨20, by decide⟩).afterCalls Sample.capCalls).currentSpend
      ⟨"alice"⟩).val = 14 := by
  obtain ⟨hadmits, hrecords, -⟩ := caps_agree ⟨20, by decide⟩ Sample.capCalls
  have hroom : ((CapTracker.withLimit ⟨20, by decide⟩).afterCalls Sample.capCalls).headroom
      ⟨"alice"⟩ .nonAccredited = .ok (some ⟨4, by decide⟩) := rfl
  refine ⟨hroom, ?_, ?_, hrecords.currentSpend ⟨"alice"⟩⟩
  · exact (hadmits _ _ _ (by decide)).recorded_iff.2 ⟨⟨_, hroom, by decide⟩, by decide⟩
  · rw [(hadmits _ _ _ (by decide)).recorded_iff, hroom]
    rintro ⟨⟨room, hsome, hle⟩, -⟩
    cases hsome
    exact absurd hle (by decide)

end TokenSale
