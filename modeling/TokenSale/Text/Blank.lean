/-!
# TokenSale.Text.Blank

Blank characters and the trimming of text.  A character is blank when it has
the Unicode property White_Space.

* `trim_trim` — trimming twice changes nothing more;
* `trim_eq_self_iff` — trimmed text is text that neither starts nor ends
  with a blank.
-/

namespace TokenSale.Text

/-- The Unicode property White_Space. -/
def isBlank (c : Char) : Bool :=
  decide (9 ≤ c.toNat ∧ c.toNat ≤ 13 ∨ c.toNat = 32 ∨ c.toNat = 0x85 ∨ c.toNat = 0xA0 ∨
    c.toNat = 0x1680 ∨ 0x2000 ≤ c.toNat ∧ c.toNat ≤ 0x200A ∨ c.toNat = 0x2028 ∨
    c.toNat = 0x2029 ∨ c.toNat = 0x202F ∨ c.toNat = 0x205F ∨ c.toNat = 0x3000)

/-- Text without its leading blanks. -/
def trimStart (cs : List Char) : List Char := cs.dropWhile isBlank

/-- Text without its trailing blanks. -/
def trimEnd (cs : List Char) : List Char := (cs.reverse.dropWhile isBlank).reverse

/-- Text without the blanks at both ends. -/
def trim (cs : List Char) : List Char := trimEnd (trimStart cs)

/-- `trim` on strings. -/
def trimmed (s : String) : String := String.ofList (trim s.toList)

/-- Whether text holds nothing but blanks. -/
def isBlankText (s : String) : Bool := s.toList.all isBlank

/-! ## laws of trimming -/

theorem dropWhile_eq_self_of_head {p : Char → Bool} {cs : List Char}
    (h : ∀ c, cs.head? = some c → p c = false) : cs.dropWhile p = cs := by
  cases cs with
  | nil => rfl
  | cons c cs => simp [h c rfl]

/-- What is left after dropping starts with an item that is kept. -/
theorem head?_dropWhile_eq_false {p : Char → Bool} {cs : List Char} {c : Char}
    (h : (cs.dropWhile p).head? = some c) : p c = false := by
  induction cs with
  | nil => simp at h
  | cons d cs ih =>
      simp only [List.dropWhile_cons] at h
      split at h
      · exact ih h
      · rename_i hd
        simp only [List.head?_cons, Option.some.injEq] at h
        subst h
        simpa using hd

/-- A text that starts with no blank stays as it is. -/
theorem trimStart_eq_self {cs : List Char} (h : ∀ c, cs.head? = some c → isBlank c = false) :
    trimStart cs = cs := dropWhile_eq_self_of_head h

theorem trimEnd_eq_self {cs : List Char} (h : ∀ c, cs.getLast? = some c → isBlank c = false) :
    trimEnd cs = cs := by
  unfold trimEnd
  rw [dropWhile_eq_self_of_head, List.reverse_reverse]
  intro c hc
  exact h c (by rwa [List.head?_reverse] at hc)

/-- A trimmed text ends with no blank. -/
theorem getLast?_trimEnd {cs : List Char} {c : Char} (h : (trimEnd cs).getLast? = some c) :
    isBlank c = false := by
  unfold trimEnd at h
  rw [List.getLast?_reverse] at h
  exact head?_dropWhile_eq_false h

theorem trimEnd_prefix (cs : List Char) : trimEnd cs <+: cs := by
  unfold trimEnd
  have h := List.dropWhile_suffix (l := cs.reverse) isBlank
  have := List.reverse_prefix.2 h
  rwa [List.reverse_reverse] at this

/-- A trimmed text starts with no blank. -/
theorem head?_trim {cs : List Char} {c : Char} (h : (trim cs).head? = some c) :
    isBlank c = false := by
  obtain ⟨r, hr⟩ := trimEnd_prefix (trimStart cs)
  have hh : (trimStart cs).head? = some c := by
    rw [← hr]
    have : trim cs = trimEnd (trimStart cs) := rfl
    rw [this] at h
    rw [List.head?_append, h]
    rfl
  exact head?_dropWhile_eq_false hh

/-- Trimmed text neither starts nor ends with a blank. -/
theorem trim_eq_self_iff {cs : List Char} :
    trim cs = cs ↔ (∀ c, cs.head? = some c → isBlank c = false) ∧
      (∀ c, cs.getLast? = some c → isBlank c = false) := by
  constructor
  · intro h
    constructor
    · intro c hc; rw [← h] at hc; exact head?_trim hc
    · intro c hc; rw [← h] at hc; exact getLast?_trimEnd hc
  · intro ⟨h₁, h₂⟩
    unfold trim
    rw [trimStart_eq_self h₁, trimEnd_eq_self h₂]

/-- **Trimming twice changes nothing more.** -/
theorem trim_trim (cs : List Char) : trim (trim cs) = trim cs :=
  trim_eq_self_iff.2 ⟨fun _ h => head?_trim h, fun _ h => getLast?_trimEnd h⟩

end TokenSale.Text
