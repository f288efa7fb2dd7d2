import TokenSale.Rate.Basic

/-!
# TokenSale.Proofs.Freshness

A rate is meant to be refused once it is older than the tolerance.  Its age is
cut down to whole seconds before it is compared, so a rate still passes while
it is older by less than one second.

* `Instant.lt_nanosSince`, `Instant.wholeSecondsSince_le_iff` — what the
  fraction that is dropped amounts to;
* `Rate.IsFresh`, `Rate.IsOverdue` — what the check is there to accept, and
  what it accepts besides;
* `Rate.checkFresh_exact` — all that the check says of the age of a rate.
-/

namespace TokenSale

namespace Instant

variable {t earlier : Instant}

/-- No reading is a whole second before an earlier one.  It can be less than
that: a leap second is forgotten when the day is over. -/
theorem lt_nanosSince (h : earlier ≤ t) : -(nanosPerSecond : Int) < t.nanosSince earlier := by
  have hearlier := earlier.nano_lt
  rw [nanosSince]
  obtain hlt | ⟨hsame, hle⟩ := le_iff.1 h
  · -- the face went on by a second at least; only within a leap second is one taken back
    have hleap : t.isLeap = true → nanosPerSecond ≤ t.nano := by simp [isLeap]
    simp only [nanosPerSecond] at *
    split
    next => split <;> omega
    next =>
    split
    next =>
      split
      next htaken =>
        have := hleap htaken
        omega
      next => omega
    next => omega
  · have hday : t.secondOfDay = earlier.secondOfDay := by rw [secondOfDay, secondOfDay, hsame]
    simp only [hday, hsame, Int.lt_irrefl, if_false, nanosPerSecond]
    omega

/-- Cut down to whole seconds, an age passes a bound while it is less than one
second above it. -/
theorem wholeSecondsSince_le_iff (h : earlier ≤ t) {n : Int} :
    t.wholeSecondsSince earlier ≤ n ↔
      0 ≤ n ∧ t.nanosSince earlier < (n + 1) * nanosPerSecond := by
  have hbehind := lt_nanosSince h
  rw [wholeSecondsSince]
  generalize t.nanosSince earlier = d at hbehind ⊢
  simp only [nanosPerSecond] at *
  obtain hneg | hpos := Int.lt_or_le d 0
  · have hzero : d.tdiv (1000000000 : Nat) = 0 := by
      rw [← Int.neg_neg d, Int.neg_tdiv, Int.tdiv_eq_zero_of_lt (by omega) (by omega), Int.neg_zero]
    omega
  · rw [Int.tdiv_eq_ediv_of_nonneg hpos]
    omega

end Instant

namespace Rate

open Instant (nanosPerSecond)

variable {currency : Currency} {r : Rate} {now : Instant} {tolerance : Int}

/-- What the check is there to accept: a usable rate that was not observed
after `now` and is no older than the tolerance. -/
structure IsFresh (r : Rate) (now : Instant) (tolerance : Int) : Prop where
  usable : r.isUsable = true
  observed : r.asOf ≤ now
  age : now.nanosSince r.asOf ≤ tolerance * nanosPerSecond

/-- Such a rate, but older than the tolerance by less than one second. -/
structure IsOverdue (r : Rate) (now : Instant) (tolerance : Int) : Prop where
  usable : r.isUsable = true
  observed : r.asOf ≤ now
  tolerant : 0 ≤ tolerance
  older : tolerance * nanosPerSecond < now.nanosSince r.asOf
  lt : now.nanosSince r.asOf < (tolerance + 1) * nanosPerSecond

/-- A rate is accepted exactly if it is usable, not from the future and not older
than the bound in whole seconds. -/
theorem checkFresh_eq_ok_iff : r.checkFresh currency now tolerance = .ok () ↔
    r.isUsable = true ∧ r.asOf ≤ now ∧ now.wholeSecondsSince r.asOf ≤ tolerance := by
  simp only [checkFresh, Bool.not_eq_true', ← Instant.not_lt, ← Int.not_lt]
  split <;> rename_i husable
  · simp [husable]
  split <;> rename_i hfuture
  · simp [hfuture]
  split <;> rename_i hstale
  · simp [hstale]
  · simp [hfuture, hstale, husable]

/-- A rate is called stale exactly if its age in whole seconds exceeds the bound,
and both are reported. -/
theorem checkFresh_eq_stale_iff {age bound : Int} :
    r.checkFresh currency now tolerance = .error (.stale currency age bound) ↔
      r.isUsable = true ∧ r.asOf ≤ now ∧ tolerance < now.wholeSecondsSince r.asOf ∧
        age = now.wholeSecondsSince r.asOf ∧ bound = tolerance := by
  simp only [checkFresh, Bool.not_eq_true', ← Instant.not_lt]
  split <;> rename_i husable
  · simp [husable]
  split <;> rename_i hfuture
  · simp [hfuture]
  split <;> rename_i hstale
  · simp [hfuture, hstale, husable, eq_comm]
  · simp [hstale]

/-- No negative tolerance is met, whatever leap seconds take back. -/
theorem IsFresh.tolerant (h : r.IsFresh now tolerance) : 0 ≤ tolerance := by
  have hbehind := Instant.lt_nanosSince h.observed
  have hage := h.age
  simp only [nanosPerSecond] at *
  omega

/-- Between two bounds that are a second apart there is no whole second. -/
theorem IsOverdue.not_dvd (h : r.IsOverdue now tolerance) :
    ¬ (nanosPerSecond : Int) ∣ now.nanosSince r.asOf := by
  have holder := h.older
  have hlt := h.lt
  simp only [nanosPerSecond] at *
  omega

/-- A rate passes if it is fresh, or stale by less than one second. -/
theorem checkFresh_eq_ok_iff_isFresh : r.checkFresh currency now tolerance = .ok () ↔
    r.IsFresh now tolerance ∨ r.IsOverdue now tolerance := by
  rw [checkFresh_eq_ok_iff]
  constructor
  · intro ⟨husable, hobserved, hage⟩
    obtain ⟨htolerant, hlt⟩ := (Instant.wholeSecondsSince_le_iff hobserved).1 hage
    obtain holder | hfresh := Int.lt_or_le (tolerance * nanosPerSecond) (now.nanosSince r.asOf)
    · exact .inr ⟨husable, hobserved, htolerant, holder, hlt⟩
    · exact .inl ⟨husable, hobserved, hfresh⟩
  · rintro (h | h)
    · refine ⟨h.usable, h.observed,
        (Instant.wholeSecondsSince_le_iff h.observed).2 ⟨h.tolerant, ?_⟩⟩
      have hage := h.age
      simp only [nanosPerSecond] at *
      omega
    · exact ⟨h.usable, h.observed,
        (Instant.wholeSecondsSince_le_iff h.observed).2 ⟨h.tolerant, h.lt⟩⟩

/-- A rate that is too old in whole seconds is older by a second at least, unless
the tolerance is negative. -/
theorem lt_wholeSecondsSince_iff (hobserved : r.asOf ≤ now) :
    tolerance < now.wholeSecondsSince r.asOf ↔
      tolerance < 0 ∨ (tolerance + 1) * nanosPerSecond ≤ now.nanosSince r.asOf := by
  rw [← Int.not_le, Instant.wholeSecondsSince_le_iff hobserved]
  omega

/-- **A rate passes if it is fresh, or stale by less than one second.**  Ages
that are whole seconds are judged exactly, and a rate that is refused as stale
is older than the tolerance by one second at least, unless the tolerance is
negative. -/
theorem checkFresh_exact (currency : Currency) (r : Rate) (now : Instant) (tolerance : Int) :
    (r.checkFresh currency now tolerance = .ok () ↔
      r.IsFresh now tolerance ∨ r.IsOverdue now tolerance) ∧
    ((nanosPerSecond : Int) ∣ now.nanosSince r.asOf →
      (r.checkFresh currency now tolerance = .ok () ↔ r.IsFresh now tolerance)) ∧
    ∀ age bound, r.checkFresh currency now tolerance = .error (.stale currency age bound) ↔
      (r.isUsable = true ∧ r.asOf ≤ now ∧
        (tolerance < 0 ∨ (tolerance + 1) * nanosPerSecond ≤ now.nanosSince r.asOf)) ∧
      age = now.wholeSecondsSince r.asOf ∧ bound = tolerance := by
  refine ⟨checkFresh_eq_ok_iff_isFresh, fun hwhole => ?_, fun age bound => ?_⟩
  · exact checkFresh_eq_ok_iff_isFresh.trans
      (or_iff_left fun hoverdue => hoverdue.not_dvd hwhole)
  · rw [checkFresh_eq_stale_iff, and_assoc, and_assoc]
    refine and_congr_right fun _ => and_congr_right fun hobserved => ?_
    rw [lt_wholeSecondsSince_iff hobserved]

/-- A rate of one unit for one unit, and times at which it is used: after a
minute, and after a minute and a second. -/
theorem checkFresh_exact_after_a_minute :
    let observed : Instant := ⟨1773144000, 0, by decide⟩
    let r : Rate := ⟨.one, .one, observed⟩
    r.checkFresh (.ofText "USD") (observed.advance 60) 60 = .ok () ∧
      r.IsFresh (observed.advance 60) 60 ∧
      r.checkFresh (.ofText "USD") (observed.advance 61) 60 =
        .error (.stale (.ofText "USD") 61 60) := by
  intro observed r
  obtain ⟨-, hwhole, -⟩ := checkFresh_exact (.ofText "USD") r (observed.advance 60) 60
  obtain ⟨-, -, hstale⟩ := checkFresh_exact (.ofText "USD") r (observed.advance 61) 60
  have hfresh : r.IsFresh (observed.advance 60) 60 := ⟨by decide, by decide, by decide⟩
  exact ⟨(hwhole (by decide)).2 hfresh, hfresh,
    (hstale 61 60).2 ⟨⟨by decide, by decide, .inr (by decide)⟩, by decide, rfl⟩⟩

/-- A rate that is half a second old passes where nothing may be older than the
moment it is used. -/
theorem accepted_when_overdue :
    let observed : Instant := ⟨1773144000, 0, by decide⟩
    let now : Instant := ⟨1773144000, 500000000, by decide⟩
    let r : Rate := ⟨.one, .one, observed⟩
    r.checkFresh (.ofText "USD") now 0 = .ok () ∧ ¬ r.IsFresh now 0 ∧ r.asOf < now := by
  refine ⟨rfl, fun h => ?_, by decide⟩
  have hage : ¬ (500000000 : Int) ≤ 0 * nanosPerSecond := by decide
  exact hage h.age

end Rate

end TokenSale
