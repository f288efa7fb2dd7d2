/-!
# TokenSale.Instant.Basic

Points in time with nanosecond resolution, in UTC.  A reading taken within a
leap second keeps the second before it and counts its nanoseconds past the
first thousand million, so readings stay in order.

* `lt_iff` — readings are ordered by their seconds, then by their nanoseconds;
* `wholeSecondsSince` — how much later one reading is than another, the
  fraction dropped;
* `advance` — a whole number of seconds later or earlier.
-/

namespace TokenSale

/-- Nanoseconds in a second. -/
abbrev Instant.nanosPerSecond : Nat := 1000000000

/-- A point in time: seconds since the start of 1970 and nanoseconds, the
latter past one second only within a leap second. -/
structure Instant where
  second : Int
  nano : Nat
  nano_lt : nano < 2 * Instant.nanosPerSecond
  deriving DecidableEq

namespace Instant

instance : Inhabited Instant := ⟨⟨0, 0, by decide⟩⟩

instance : LT Instant :=
  ⟨fun a b => a.second < b.second ∨ a.second = b.second ∧ a.nano < b.nano⟩

instance : LE Instant :=
  ⟨fun a b => a.second < b.second ∨ a.second = b.second ∧ a.nano ≤ b.nano⟩

theorem lt_iff {a b : Instant} :
    a < b ↔ a.second < b.second ∨ a.second = b.second ∧ a.nano < b.nano := Iff.rfl

theorem le_iff {a b : Instant} :
    a ≤ b ↔ a.second < b.second ∨ a.second = b.second ∧ a.nano ≤ b.nano := Iff.rfl

instance (a b : Instant) : Decidable (a < b) := decidable_of_iff _ lt_iff.symm

instance (a b : Instant) : Decidable (a ≤ b) := decidable_of_iff _ le_iff.symm

theorem le_refl (a : Instant) : a ≤ a := le_iff.2 (.inr ⟨rfl, Nat.le_refl _⟩)

theorem le_trans {a b c : Instant} (hab : a ≤ b) (hbc : b ≤ c) : a ≤ c := by
  rw [le_iff] at *; omega

/-- The order is total: what is not earlier is the same or later. -/
theorem not_lt {a b : Instant} : ¬ a < b ↔ b ≤ a := by
  rw [lt_iff, le_iff]; omega

/-- The order is total: what is not the same or earlier is later. -/
theorem not_le {a b : Instant} : ¬ a ≤ b ↔ b < a := by
  rw [lt_iff, le_iff]; omega

theorem lt_of_lt_of_le {a b c : Instant} (hab : a < b) (hbc : b ≤ c) : a < c := by
  rw [lt_iff, le_iff] at *; omega

theorem lt_of_le_of_lt {a b c : Instant} (hab : a ≤ b) (hbc : b < c) : a < c := by
  rw [lt_iff, le_iff] at *; omega

/-- Whether the reading lies within a leap second. -/
def isLeap (t : Instant) : Bool := nanosPerSecond ≤ t.nano

/-- The second of the day. -/
def secondOfDay (t : Instant) : Int := t.second % 86400

/-- The nanoseconds from `earlier` to `t`.  A leap second between the two
readings counts when the clock stands later, or earlier, on its face. -/
def nanosSince (t earlier : Instant) : Int :=
  let leap : Int :=
    if earlier.secondOfDay < t.secondOfDay then (if earlier.isLeap then 1 else 0)
    else if t.secondOfDay < earlier.secondOfDay then (if t.isLeap then -1 else 0)
    else 0
  (t.second - earlier.second + leap) * nanosPerSecond + ((t.nano : Int) - earlier.nano)

/-- The whole seconds from `earlier` to `t`, the fraction dropped. -/
def wholeSecondsSince (t earlier : Instant) : Int :=
  (t.nanosSince earlier).tdiv nanosPerSecond

/-- The instant `n` seconds later; a step out of a leap second lands on the
second after it or on the second it belongs to. -/
def advance (t : Instant) (n : Int) : Instant :=
  if n = 0 then t
  else if t.isLeap then
    ⟨t.second + n + (if n < 0 then 1 else 0), t.nano % nanosPerSecond,
      Nat.lt_of_lt_of_le (Nat.mod_lt _ (by decide)) (by decide)⟩
  else ⟨t.second + n, t.nano, t.nano_lt⟩

end Instant

end TokenSale
