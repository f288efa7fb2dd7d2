import Mathlib.Data.List.Basic
import Mathlib.Data.List.TakeWhile
import Mathlib.Data.Nat.Digits.Defs
import TokenSale.Price.Text

/-!
# TokenSale.Proofs.QuantityText

Which texts spell an amount, and which a price.  The grammar is stated by
itself, from the blanks at the ends to the value of the digits; reading accepts
exactly what it allows and gives that value, as long as an amount can count it.

* `Text.Numeral`, `Text.Ratio` — numbers and ratios as they may be spelt;
* `Quantity.ofChars?_eq_some_iff`, `Price.ofChars?_eq_some_iff` — reading
  accepts just these;
* `quantity_text_exact` — both directions, and what is written comes back.
-/

namespace TokenSale

namespace Text

variable {cs cs' core : List Char} {n d : Nat}

/-! ## numbers -/

/-- Digits with underscores anywhere among them, as many zeros in front as one
likes, spell a number in decimal notation. -/
structure Grouped (core : List Char) (n : Nat) : Prop where
  ne_nil : core.filter (· ≠ '_') ≠ []
  digits : ∀ c ∈ core.filter (· ≠ '_'), '0' ≤ c ∧ c ≤ '9'
  value : Nat.ofDigits 10 ((core.filter (· ≠ '_')).reverse.map fun c => c.toNat - '0'.toNat) = n

/-- Grouped digits with blanks around them. -/
def Numeral (cs : List Char) (n : Nat) : Prop :=
  ∃ lead core trail, cs = lead ++ core ++ trail ∧ (∀ c ∈ lead ++ trail, isBlank c = true) ∧
    Grouped core n

theorem isDigit_of_mem_toDigits {c : Char} (h : c ∈ Nat.toDigits 10 n) : c.isDigit = true :=
  Nat.isDigit_of_mem_toDigits (by decide) (by decide) h

theorem isBlank_of_isDigit {c : Char} (h : c.isDigit = true) : isBlank c = false := by
  have hc := Char.isDigit_iff_toNat.1 h
  have hleast : '0'.toNat = 48 := rfl
  have hmost : '9'.toNat = 57 := rfl
  simp only [isBlank, decide_eq_false_iff_not]
  omega

theorem isDigit_iff {c : Char} : c.isDigit = true ↔ '0' ≤ c ∧ c ≤ '9' := by
  simp [Char.isDigit, Char.le_def]

/-- Horner's scheme computes the value of digits. -/
theorem ofDigitChars_eq_ofDigits (ds : List Char) :
    Nat.ofDigitChars 10 ds 0 =
      Nat.ofDigits 10 (ds.reverse.map fun c => c.toNat - '0'.toNat) := by
  rw [← List.reverse_reverse ds]
  generalize ds.reverse = rs
  induction rs with
  | nil => rfl
  | cons c rs ih =>
      rw [List.reverse_cons, Nat.ofDigitChars_append, ih, Nat.ofDigitChars_cons,
        Nat.ofDigitChars_nil, ← List.reverse_cons, List.reverse_reverse, List.reverse_reverse,
        List.map_cons, Nat.ofDigits_cons, Nat.add_comm]

namespace Grouped

theorem isDigit_or (h : Grouped core n) {c : Char} (hc : c ∈ core) : c.isDigit = true ∨ c = '_' := by
  by_cases hsep : c = '_'
  · exact .inr hsep
  · exact .inl (isDigit_iff.2 (h.digits c (List.mem_filter.2 ⟨hc, by simpa using hsep⟩)))

theorem isBlank_eq_false (h : Grouped core n) {c : Char} (hc : c ∈ core) : isBlank c = false := by
  obtain hdigit | rfl := h.isDigit_or hc
  · exact isBlank_of_isDigit hdigit
  · decide

/-- Nothing is trimmed off. -/
theorem trim_eq (h : Grouped core n) : trim core = core :=
  trim_eq_self_iff.2 ⟨fun _ hc => h.isBlank_eq_false (List.mem_of_mem_head? hc),
    fun _ hc => h.isBlank_eq_false (List.mem_of_getLast? hc)⟩

end Grouped

/-- What is trimmed off is blank. -/
theorem exists_eq_trim (cs : List Char) : ∃ lead trail, cs = lead ++ trim cs ++ trail ∧
    ∀ c ∈ lead ++ trail, isBlank c = true := by
  refine ⟨cs.takeWhile isBlank, ((trimStart cs).reverse.takeWhile isBlank).reverse, ?_, ?_⟩
  · have hend : trim cs ++ ((trimStart cs).reverse.takeWhile isBlank).reverse = trimStart cs := by
      rw [trim, trimEnd, ← List.reverse_append, List.takeWhile_append_dropWhile,
        List.reverse_reverse]
    rw [List.append_assoc, hend, trimStart, List.takeWhile_append_dropWhile]
  · intro c hc
    obtain hc | hc := List.mem_append.1 hc
    · exact List.mem_takeWhile_imp hc
    · exact List.mem_takeWhile_imp (List.mem_reverse.1 hc)

/-- Blanks around a text are trimmed off. -/
theorem trim_append {lead trail : List Char} (hblank : ∀ c ∈ lead ++ trail, isBlank c = true)
    (hne : core ≠ []) (hcore : trim core = core) : trim (lead ++ core ++ trail) = core := by
  obtain ⟨hlead, htrail⟩ := List.forall_mem_append.1 hblank
  obtain ⟨hfirst, hlast⟩ := trim_eq_self_iff.1 hcore
  have hstart : trimStart (lead ++ core ++ trail) = core ++ trail := by
    rw [trimStart, List.append_assoc, List.dropWhile_append_of_pos hlead]
    refine dropWhile_eq_self_of_head fun c hc => hfirst c ?_
    rwa [List.head?_append_of_ne_nil _ hne] at hc
  rw [trim, hstart, trimEnd, List.reverse_append, List.dropWhile_append_of_pos
    (fun c hc => htrail c (List.mem_reverse.1 hc))]
  exact trimEnd_eq_self hlast

/-- A numeral is a text of grouped digits, once it is trimmed. -/
theorem numeral_iff : Numeral cs n ↔ Grouped (trim cs) n := by
  constructor
  · rintro ⟨lead, core, trail, rfl, hblank, hcore⟩
    have hne : core ≠ [] := fun h => hcore.ne_nil (by rw [h]; rfl)
    rwa [trim_append hblank hne hcore.trim_eq]
  · intro h
    obtain ⟨lead, trail, hcs, hblank⟩ := exists_eq_trim cs
    exact ⟨lead, trim cs, trail, hcs, hblank, h⟩

namespace Numeral

/-- A numeral contains blanks, digits and underscores only. -/
theorem mem_cases (h : Numeral cs n) {c : Char} (hc : c ∈ cs) :
    isBlank c = true ∨ c.isDigit = true ∨ c = '_' := by
  obtain ⟨lead, core, trail, rfl, hblank, hcore⟩ := h
  simp only [List.mem_append] at hc hblank
  obtain (hc | hc) | hc := hc
  · exact .inl (hblank c (.inl hc))
  · exact .inr (hcore.isDigit_or hc)
  · exact .inl (hblank c (.inr hc))

/-- A numeral contains no slash, so a ratio is split at its own. -/
theorem slash_notMem (h : Numeral cs n) : '/' ∉ cs := by
  intro hc
  obtain hblank | hdigit | hsep := h.mem_cases hc
  · exact absurd hblank (by decide)
  · exact absurd hdigit (by decide)
  · exact absurd hsep (by decide)

end Numeral

/-- What is written spells the number that it was written for. -/
theorem numeral_toString (n : Nat) : Numeral (toString n).toList n := by
  have hchars : (toString n).toList = Nat.toDigits 10 n := Nat.toList_repr
  have hdigits : ∀ c ∈ Nat.toDigits 10 n, c.isDigit = true := fun c => isDigit_of_mem_toDigits
  have hfilter : (Nat.toDigits 10 n).filter (· ≠ '_') = Nat.toDigits 10 n := by
    refine List.filter_eq_self.2 fun c hc => ?_
    have hne : c ≠ '_' := fun h => by simpa [h] using hdigits c hc
    simpa using hne
  refine ⟨[], Nat.toDigits 10 n, [], by simp, by simp, ?_, ?_, ?_⟩
  · rw [hfilter]
    exact Nat.toDigits_ne_nil
  · rw [hfilter]
    exact fun c hc => isDigit_iff.1 (hdigits c hc)
  · rw [hfilter, ← ofDigitChars_eq_ofDigits, Nat.ofDigitChars_ten_toDigits]

/-! ## ratios -/

/-- A number for one, or two numbers with a slash between them. -/
def Ratio (cs : List Char) (n d : Nat) : Prop :=
  Numeral cs n ∧ d = 1 ∨
    ∃ before after, cs = before ++ '/' :: after ∧ Numeral before n ∧ Numeral after d

/-- A text is split at the first separator. -/
theorem splitOnce_eq_some_iff {c : Char} {before after : List Char} :
    splitOnce c cs = some (before, after) ↔ cs = before ++ c :: after ∧ c ∉ before := by
  unfold splitOnce
  constructor
  · intro h
    split at h
    · contradiction
    next c' rest hdrop =>
    cases h
    have hc : c' = c := by
      have hhead := head?_dropWhile_eq_false (p := (· ≠ c)) (by rw [hdrop]; rfl)
      simpa using hhead
    refine ⟨?_, fun hmem => by simpa using List.mem_takeWhile_imp hmem⟩
    have hwhole := List.takeWhile_append_dropWhile (p := (· ≠ c)) (l := cs)
    rw [hdrop, hc] at hwhole
    exact hwhole.symm
  · rintro ⟨rfl, hnot⟩
    have hbefore : ∀ a ∈ before, decide (a ≠ c) = true := fun a ha => by
      simpa using fun h : a = c => hnot (h ▸ ha)
    rw [List.dropWhile_append_of_pos hbefore, List.takeWhile_append_of_pos hbefore]
    simp

theorem splitOnce_eq_none_iff {c : Char} : splitOnce c cs = none ↔ c ∉ cs := by
  constructor
  · intro h hmem
    obtain ⟨before, after, heq, hnot⟩ := List.eq_append_cons_of_mem hmem
    rw [splitOnce_eq_some_iff.2 ⟨heq, hnot⟩] at h
    contradiction
  · intro hnot
    cases h : splitOnce c cs with
    | none => rfl
    | some p =>
        obtain ⟨rfl, -⟩ := splitOnce_eq_some_iff.1 h
        exact absurd (by simp) hnot

end Text

namespace Quantity

variable {s : Scale}

/-- **Reading accepts numerals, and gives what they spell.** -/
theorem ofChars?_eq_some_iff {cs : List Char} {q : Quantity s} :
    ofChars? cs = some q ↔ Text.Numeral cs q.val := by
  rw [Text.numeral_iff, ofChars?]
  simp only [Text.ofDigitChars_eq_ofDigits]
  split
  next hdigits =>
    refine iff_of_false nofun fun h => ?_
    have hall : ((Text.trim cs).filter (· ≠ '_')).all Char.isDigit = true :=
      List.all_eq_true.2 fun c hc => Text.isDigit_iff.2 (h.digits c hc)
    have hsome : ((Text.trim cs).filter (· ≠ '_')).isEmpty = false :=
      List.isEmpty_eq_false_iff.2 h.ne_nil
    rw [hall, hsome] at hdigits
    contradiction
  next hdigits =>
    rw [Bool.or_eq_true, not_or, List.isEmpty_iff, Bool.not_eq_true, Bool.not_eq_false',
      List.all_eq_true] at hdigits
    rw [ofNat?_eq_some_iff]
    constructor
    · exact fun h => ⟨hdigits.1, fun c hc => Text.isDigit_iff.1 (hdigits.2 c hc), h.symm⟩
    · exact fun h => h.value.symm

/-- **The texts that are read as a quantity are exactly its numerals.** -/
theorem ofText?_eq_some_iff {t : String} {q : Quantity s} :
    ofText? t = some q ↔ Text.Numeral t.toList q.val := ofChars?_eq_some_iff

/-- A written quantity is read back. -/
theorem ofText?_toString (a : Quantity s) : ofText? (toString a) = some a :=
  ofText?_eq_some_iff.2 (Text.numeral_toString a.val)

end Quantity

namespace Price

/-- A whole price has one token on its other side. -/
theorem perToken?_eq_some_iff {u : Units} {p : Price} :
    perToken? u = some p ↔ (p.units = u ∧ p.tokens.val = 1) ∧ p.isValid = true := by
  rw [perToken?, ofSides?_eq_some_iff]
  refine and_congr_left fun _ => ⟨?_, fun ⟨hunits, hone⟩ => ?_⟩
  · rintro rfl
    exact ⟨rfl, rfl⟩
  · have htokens : p.tokens = .one := Quantity.ext hone
    rw [← hunits, ← htokens]

/-- **Reading accepts ratios of which neither side is zero.** -/
theorem ofChars?_eq_some_iff {cs : List Char} {p : Price} :
    ofChars? cs = some p ↔ Text.Ratio cs p.units.val p.tokens.val ∧ p.isValid = true := by
  unfold ofChars?
  split
  next before after hsplit =>
    obtain ⟨rfl, hnot⟩ := Text.splitOnce_eq_some_iff.1 hsplit
    simp only [Option.bind_eq_bind, Option.bind_eq_some_iff, ofSides?_eq_some_iff,
      Quantity.ofChars?_eq_some_iff]
    constructor
    · rintro ⟨u, hu, t, ht, rfl, hvalid⟩
      exact ⟨.inr ⟨before, after, rfl, hu, ht⟩, hvalid⟩
    · rintro ⟨⟨hwhole, -⟩ | ⟨before', after', heq, hu, ht⟩, hvalid⟩
      · exact absurd (by simp) hwhole.slash_notMem
      · have hsame := Text.splitOnce_eq_some_iff.2 ⟨heq, hu.slash_notMem⟩
        rw [hsplit] at hsame
        cases hsame
        exact ⟨p.units, hu, p.tokens, ht, rfl, hvalid⟩
  next hsplit =>
    have hnot := Text.splitOnce_eq_none_iff.1 hsplit
    simp only [Option.bind_eq_bind, Option.bind_eq_some_iff, perToken?_eq_some_iff,
      Quantity.ofChars?_eq_some_iff]
    constructor
    · rintro ⟨_, hu, ⟨rfl, hone⟩, hvalid⟩
      exact ⟨.inl ⟨hu, hone⟩, hvalid⟩
    · rintro ⟨⟨hu, hone⟩ | ⟨before, after, rfl, -, -⟩, hvalid⟩
      · exact ⟨p.units, hu, ⟨rfl, hone⟩, hvalid⟩
      · exact absurd (by simp) hnot

/-- **The texts that are read as a price are exactly its ratios.** -/
theorem ofText?_eq_some_iff {s : String} {p : Price} :
    ofText? s = some p ↔ Text.Ratio s.toList p.units.val p.tokens.val ∧ p.isValid = true :=
  ofChars?_eq_some_iff

/-- What is written spells the price that it was written for. -/
theorem ratio_text (p : Price) : Text.Ratio p.text.toList p.units.val p.tokens.val := by
  unfold text
  split
  next hone => exact .inl ⟨Text.numeral_toString _, by rw [hone]; rfl⟩
  next =>
    have htext : s!"{p.units}/{p.tokens}" =
        toString p.units.val ++ "/" ++ toString p.tokens.val := rfl
    exact .inr ⟨_, _, by rw [htext]; simp, Text.numeral_toString _, Text.numeral_toString _⟩

end Price

/-- **The text of amounts has an exact grammar.**  A text is read as a number
exactly if it spells that number and amounts go that far; what is written for
an amount is read as it.  What is written for a price with neither side zero is
read as it, and no text is read as any other price. -/
theorem quantity_text_exact :
    (∀ (sc : Scale) (s : String) (n : Nat),
      (∃ q : Quantity sc, Quantity.ofText? s = some q ∧ q.val = n) ↔
        Text.Numeral s.toList n ∧ n < Nat.pow 2 128) ∧
      (∀ (sc : Scale) (q : Quantity sc), Quantity.ofText? (toString q.val) = some q) ∧
      (∀ p : Price, 0 < p.units.val → 0 < p.tokens.val → Price.ofText? p.text = some p) ∧
      ∀ (s : String) (p : Price), Price.ofText? s = some p ↔
        Text.Ratio s.toList p.units.val p.tokens.val ∧ 0 < p.units.val ∧ 0 < p.tokens.val := by
  refine ⟨fun sc s n => ?_, fun sc q => q.ofText?_toString, fun p hu ht => ?_, fun s p => ?_⟩
  · constructor
    · rintro ⟨q, hq, rfl⟩
      exact ⟨Quantity.ofText?_eq_some_iff.1 hq, q.val_lt⟩
    · rintro ⟨hn, hlt⟩
      exact ⟨⟨n, hlt⟩, Quantity.ofText?_eq_some_iff.2 hn, rfl⟩
  · exact Price.ofText?_eq_some_iff.2 ⟨p.ratio_text, Price.isValid_iff.2 ⟨hu, ht⟩⟩
  · rw [Price.ofText?_eq_some_iff, Price.isValid_iff]

/-- The largest amount, spelt with a zero in front, separators and blanks, and
a price with a side of its own for the tokens. -/
theorem quantity_text_exact_largest :
    Text.Numeral "\t0_340282366920938463463_374607431768211455_ ".toList (Nat.pow 2 128 - 1) ∧
      Price.ofText? "7/2" = some ⟨⟨7, by decide⟩, ⟨2, by decide⟩⟩ := by
  have hread : Quantity.ofText? (s := .units) "\t0_340282366920938463463_374607431768211455_ " =
      some .max := by decide +kernel
  have htext : (Price.mk ⟨7, by decide⟩ ⟨2, by decide⟩).text = "7/2" := by decide +kernel
  refine ⟨((quantity_text_exact.1 .units _ _).1 ⟨.max, hread, rfl⟩).1, ?_⟩
  rw [← htext]
  exact quantity_text_exact.2.2.1 _ (by decide) (by decide)

end TokenSale
