import TokenSale.Instant.Calendar

/-!
# TokenSale.Proofs.Calendar

Every day has a date, and its date tells which day it is.
-/

namespace TokenSale.Calendar

/-- The days of an era, counted from a first of March, in centuries, spans of
four years and years; only the last year of a span can have a leap day, and
that of a century only at the end of the era. -/
structure IsParts (d c q y n : Int) : Prop where
  eq : d = 36524 * c + 1461 * q + 365 * y + n
  century : 0 ≤ c ∧ c ≤ 3
  span : 0 ≤ q ∧ q ≤ 24
  year : 0 ≤ y ∧ y ≤ 3
  day : 0 ≤ n ∧ n ≤ 365
  leap : n = 365 → y = 3 ∧ (q = 24 → c = 3)

/-- Every day of an era lies in a century, a span of four years and a year. -/
theorem exists_isParts {d : Int} (hd : 0 ≤ d) (hd' : d < 146097) :
    ∃ c q y n, IsParts d c q y n := by
  obtain ⟨c, r, hc, hr, hr', hd, hlast⟩ : ∃ c r : Int, (0 ≤ c ∧ c ≤ 3) ∧ 0 ≤ r ∧ r ≤ 36524 ∧
      d = 36524 * c + r ∧ (r = 36524 → c = 3) := by
    by_cases h : d / 36524 = 4
    · exact ⟨3, d - 36524 * 3, by omega⟩
    · exact ⟨d / 36524, d % 36524, by omega⟩
  have hs := Int.emod_nonneg r (show (1461 : Int) ≠ 0 by decide)
  by_cases h : r % 1461 / 365 = 4
  · exact ⟨c, r / 1461, 3, 365, by omega, hc, by omega, by omega, by omega, by omega⟩
  · exact ⟨c, r / 1461, r % 1461 / 365, r % 1461 % 365, by omega, hc, by omega, by omega, by omega,
      by omega⟩

/-- The year of a day is found by taking out the leap days before it. -/
theorem IsParts.yearOfEra {d c q y n : Int} (h : IsParts d c q y n) :
    (d - d / 1460 + d / 36524 - d / 146096) / 365 = 100 * c + 4 * q + y := by
  obtain ⟨rfl, hc, hq, hy, hn, hleap⟩ := h
  have h36524 : (36524 * c + 1461 * q + 365 * y + n) / 36524 =
      c + (if q = 24 ∧ y = 3 ∧ n = 365 then 1 else 0) := by
    split <;> omega
  have h146096 : (36524 * c + 1461 * q + 365 * y + n) / 146096 =
      (if q = 24 ∧ y = 3 ∧ n = 365 then 1 else 0) := by
    split <;> omega
  have h1460 : 0 ≤ (36524 * c + 1461 * q + 365 * y + n) / 1460 - (25 * c + q) ∧
     (36524 * c + 1461 * q + 365 * y + n) / 1460 - (25 * c + q) ≤ 1 := by
    omega
  rw [h36524, h146096]
  omega

/-- What is left over is the day of the year. -/
theorem IsParts.dayOfYear {d c q y n : Int} (h : IsParts d c q y n) :
    d - (365 * (100 * c + 4 * q + y) + (100 * c + 4 * q + y) / 4 - (100 * c + 4 * q + y) / 100) =
      n := by
  obtain ⟨rfl, hc, hq, hy, hn, hleap⟩ := h
  have h4 : (100 * c + 4 * q + y) / 4 = 25 * c + q := by omega
  have h100 : (100 * c + 4 * q + y) / 100 = c := by omega
  rw [h4, h100]
  omega

/-- The parts of the day of the era, from which the date is made. -/
theorem ofDays_eq (days : Int) : ∃ era c q y n, IsParts (days + 719468 - era * 146097) c q y n ∧
    Date.ofDays days =
      let month := (5 * n + 2) / 153
      let m := if month < 10 then month + 3 else month - 9
      let year := 100 * c + 4 * q + y + era * 400
      ⟨if m ≤ 2 then year + 1 else year, m.toNat, (n - (153 * month + 2) / 5 + 1).toNat⟩ := by
  obtain ⟨c, q, y, n, h⟩ :=
    exists_isParts (d := days + 719468 - (days + 719468) / 146097 * 146097) (by omega) (by omega)
  refine ⟨(days + 719468) / 146097, c, q, y, n, h, ?_⟩
  rw [Date.ofDays, h.yearOfEra, h.dayOfYear]

/-- **The date of a day tells which day it is.** -/
theorem toDays_ofDays (days : Int) : (Date.ofDays days).toDays = days := by
  obtain ⟨era, c, q, y, n, h, hdate⟩ := ofDays_eq days
  have hday := h.dayOfYear
  obtain ⟨-, hc, hq, hy, hn, -⟩ := h
  have hera : (100 * c + 4 * q + y + era * 400) / 400 = era := by omega
  rw [hdate]
  -- the year of the calendar begins with the eleventh month after the first of March
  by_cases hmonth : (5 * n + 2) / 153 < 10
  · have hm : ¬ (5 * n + 2) / 153 + 3 ≤ 2 := by omega
    have hm' : ¬ ((5 * n + 2) / 153 + 3).toNat ≤ 2 := by omega
    have hindex : ((((5 * n + 2) / 153 + 3).toNat : Int) + 9) % 12 = (5 * n + 2) / 153 := by omega
    simp only [Date.toDays, if_pos hmonth, if_neg hm, if_neg hm', hindex, hera]
    omega
  · have hm : (5 * n + 2) / 153 - 9 ≤ 2 := by omega
    have hm' : ((5 * n + 2) / 153 - 9).toNat ≤ 2 := by omega
    have hindex : ((((5 * n + 2) / 153 - 9).toNat : Int) + 9) % 12 = (5 * n + 2) / 153 := by omega
    simp only [Date.toDays, if_neg hmonth, if_pos hm, if_pos hm', hindex, Int.add_sub_cancel, hera]
    omega

/-- The day a year has beyond 365 belongs to a leap year. -/
theorem isLeapYear_of_parts {c q era : Int} (hq : 0 ≤ q ∧ q ≤ 24) (h : q = 24 → c = 3) :
    isLeapYear (100 * c + 4 * q + 3 + era * 400 + 1) = true := by
  simp only [isLeapYear, Bool.and_eq_true, Bool.or_eq_true, beq_iff_eq, bne_iff_ne]
  omega

/-- The date of a day exists. -/
theorem exists_ofDays (days : Int) : (Date.ofDays days).exists = true := by
  obtain ⟨era, c, q, y, n, h, hdate⟩ := ofDays_eq days
  obtain ⟨-, hc, hq, hy, hn, hleap⟩ := h
  rw [hdate]
  simp only [Date.exists, Bool.and_eq_true, decide_eq_true_eq]
  by_cases hmonth : (5 * n + 2) / 153 < 10
  · simp only [if_pos hmonth, daysInMonth]
    refine ⟨⟨⟨by omega, by omega⟩, by omega⟩, ?_⟩
    rw [if_neg (by omega)]
    split <;> omega
  · have hm : (5 * n + 2) / 153 - 9 ≤ 2 := by omega
    simp only [if_neg hmonth, if_pos hm, daysInMonth]
    refine ⟨⟨⟨by omega, by omega⟩, by omega⟩, ?_⟩
    by_cases hlast : n = 365
    · obtain ⟨rfl, hcentury⟩ := hleap hlast
      rw [isLeapYear_of_parts hq hcentury]
      split
      · simp only [if_true]; omega
      · rw [if_neg (by omega)]; omega
    · split
      · split <;> omega
      · rw [if_neg (by omega)]; omega

end TokenSale.Calendar
