import Mathlib.Data.List.TakeWhile
import TokenSale.Json.Printer
import TokenSale.Json.Reader
import TokenSale.Proofs.Entries

/-!
# TokenSale.Proofs.JsonText

Reading back what was written.  A document comes back from its text, whatever
stands behind it there, if it is one that programs write: integers of 64 bits,
floating-point numbers of which the written form reads back, and distinct keys.

* `IsDocument`, `IsValue` — documents that are written, with the members of
  objects in any order, and those that are held, with members in key order;
* `readString_flatMap_escapeChar`, `readNumber_intChars` — strings and integers read back;
* `reads_of_isDocument` — documents read back up to the depth that is allowed;
* `ofChars?_write`, `ofChars?_write_eq` — so does a whole text, and what is
  nested deeper is refused;
* `eq_of_write_eq` — two documents with one text are the same.
-/

namespace TokenSale

/-- The number comes back from its written form. -/
def Binary64.ReadsBack (x : Binary64) : Prop := Json.readNumber x.chars = some (.float x, [])

namespace Json

open OrderedKey

/-! ## documents and their parts -/

/-- An array is made of its items, an object of the values of its members. -/
@[elab_as_elim] theorem induction {P : Json → Prop} (null : P .null) (bool : ∀ b, P (.bool b))
    (int : ∀ n, P (.int n)) (float : ∀ x, P (.float x)) (str : ∀ s, P (.str s))
    (arr : ∀ items, (∀ v ∈ items, P v) → P (.arr items))
    (obj : ∀ members, (∀ p ∈ members, P p.2) → P (.obj members)) (v : Json) : P v :=
  @Json.rec P (fun items => ∀ v ∈ items, P v) (fun members => ∀ p ∈ members, P p.2) (fun p => P p.2)
    null bool int float str arr obj (List.forall_mem_nil P)
    (fun _ _ hv hrest => List.forall_mem_cons.2 ⟨hv, hrest⟩)
    (List.forall_mem_nil fun p : String × Json => P p.2)
    (fun _ _ hp hrest => List.forall_mem_cons.2 ⟨hp, hrest⟩) (fun _ _ hv => hv) v

/-- Documents as programs write them, with floating-point numbers of some kind:
integers have 64 bits, and an object has one member under each key, in any
order. -/
inductive IsDocument (ok : Binary64 → Prop) : Json → Prop
  | null : IsDocument ok .null
  | bool (b : Bool) : IsDocument ok (.bool b)
  | int {n : Int} (least : -(Nat.pow 2 63 : Int) ≤ n) (most : n < Nat.pow 2 64) :
    IsDocument ok (.int n)
  | float {x : Binary64} (h : ok x) : IsDocument ok (.float x)
  | str (s : String) : IsDocument ok (.str s)
  | arr {items : List Json} (h : ∀ v ∈ items, IsDocument ok v) : IsDocument ok (.arr items)
  | obj {members : List (String × Json)} (h : ∀ p ∈ members, IsDocument ok p.2)
    (distinct : (members.map Prod.fst).Nodup) : IsDocument ok (.obj members)

/-- Documents as programs hold them, with floating-point numbers of some kind:
integers have 64 bits, and the members of an object stand in key order, one
under each key. -/
inductive IsValue (ok : Binary64 → Prop) : Json → Prop
  | null : IsValue ok .null
  | bool (b : Bool) : IsValue ok (.bool b)
  | int {n : Int} (least : -(Nat.pow 2 63 : Int) ≤ n) (most : n < Nat.pow 2 64) :
    IsValue ok (.int n)
  | float {x : Binary64} (h : ok x) : IsValue ok (.float x)
  | str (s : String) : IsValue ok (.str s)
  | arr {items : List Json} (h : ∀ v ∈ items, IsValue ok v) : IsValue ok (.arr items)
  | obj {members : List (String × Json)} (h : ∀ p ∈ members, IsValue ok p.2)
    (ordered : members.Pairwise fun p q => before p.1 q.1 = true) : IsValue ok (.obj members)

/-- What is held can be written. -/
theorem IsValue.isDocument {ok : Binary64 → Prop} {v : Json} (h : v.IsValue ok) :
    v.IsDocument ok := by
  induction v using Json.induction with
  | null => exact .null
  | bool b => exact .bool b
  | int n => cases h with
    | int least most => exact .int least most
  | float x => cases h with
    | float h => exact .float h
  | str s => exact .str s
  | arr items ih => cases h with
    | arr hitems => exact .arr fun v hv => ih v hv (hitems v hv)
  | obj members ih => cases h with
    | obj hmembers hordered =>
      exact .obj (fun p hp => ih p hp (hmembers p hp)) (Directory.nodup_of_pairwise hordered)

mutual

/-- How deep arrays and objects are nested. -/
def depth : Json → Nat
  | arr items => depthOfItems items + 1
  | obj members => depthOfMembers members + 1
  | null | bool _ | int _ | float _ | str _ => 0

/-- The greatest depth of an item. -/
def depthOfItems : List Json → Nat
  | [] => 0
  | v :: rest => max (depth v) (depthOfItems rest)

/-- The greatest depth of the value of a member. -/
def depthOfMembers : List (String × Json) → Nat
  | [] => 0
  | (_, v) :: rest => max (depth v) (depthOfMembers rest)

end

theorem depth_le_of_mem_items {v : Json} {items : List Json} (h : v ∈ items) :
    v.depth ≤ depthOfItems items := by
  induction items with
  | nil => simp at h
  | cons w rest ih =>
      rw [depthOfItems]
      obtain rfl | h := List.mem_cons.1 h
      · exact Nat.le_max_left _ _
      · exact Nat.le_trans (ih h) (Nat.le_max_right _ _)

theorem depth_le_of_mem_members {p : String × Json} {members : List (String × Json)}
    (h : p ∈ members) : p.2.depth ≤ depthOfMembers members := by
  induction members with
  | nil => simp at h
  | cons q rest ih =>
      rw [depthOfMembers]
      obtain rfl | h := List.mem_cons.1 h
      · exact Nat.le_max_left _ _
      · exact Nat.le_trans (ih h) (Nat.le_max_right _ _)

theorem depthOfMembers_le {members : List (String × Json)} {n : Nat}
    (h : ∀ p ∈ members, p.2.depth ≤ n) : depthOfMembers members ≤ n := by
  induction members with
  | nil => exact Nat.zero_le _
  | cons p members ih =>
      obtain ⟨hp, hrest⟩ := List.forall_mem_cons.1 h
      exact Nat.max_le.2 ⟨hp, ih hrest⟩

theorem depthOfItems_le {items : List Json} {n : Nat} (h : ∀ v ∈ items, v.depth ≤ n) :
    depthOfItems items ≤ n := by
  induction items with
  | nil => exact Nat.zero_le _
  | cons v items ih =>
      obtain ⟨hv, hrest⟩ := List.forall_mem_cons.1 h
      exact Nat.max_le.2 ⟨hv, ih hrest⟩

/-! ## strings -/

/-- The code of a control character is read back from its four digits. -/
theorem hexCode?_control {n : Nat} (h : n < 0x20) :
    hexCode? '0' '0' (Nat.digitChar (n / 16)) (Nat.digitChar (n % 16)) = some n := by
  have hall : ∀ n < 0x20,
      hexCode? '0' '0' (Nat.digitChar (n / 16)) (Nat.digitChar (n % 16)) = some n := by decide
  exact hall n h

/-- An escaped character is read as the one it stands for. -/
theorem readString_escaped {e c : Char} (he : e ≠ 'u') (h : unescape? e = some c)
    (cs : List Char) :
    readString ('\\' :: e :: cs) = (readString cs).map fun p => (c :: p.1, p.2) := by
  rw [readString, h]
  · exact fun _ _ _ _ _ heq => absurd heq he

/-- A character comes back from its form within a string. -/
theorem readString_escapeChar (c : Char) (cs : List Char) :
    readString (escapeChar c ++ cs) = (readString cs).map fun p => (c :: p.1, p.2) := by
  unfold escapeChar
  split
  next h => subst h; exact readString_escaped (by decide) rfl cs
  split
  next h => subst h; exact readString_escaped (by decide) rfl cs
  split
  next h => subst h; exact readString_escaped (by decide) rfl cs
  split
  next h => subst h; exact readString_escaped (by decide) rfl cs
  split
  next h => subst h; exact readString_escaped (by decide) rfl cs
  split
  next h => subst h; exact readString_escaped (by decide) rfl cs
  split
  next h => subst h; exact readString_escaped (by decide) rfl cs
  split
  next h =>
    simp only [List.cons_append, List.nil_append, readString, hexCode?_control h]
    rw [if_neg (by omega), if_neg (by omega), Char.ofNat_toNat]
  next _ hslash _ _ _ _ _ hcontrol => simp [readString, hslash, hcontrol]

/-- A string comes back from its quotes. -/
theorem readString_flatMap_escapeChar (cs rest : List Char) :
    readString (cs.flatMap escapeChar ++ '"' :: rest) = some (cs, rest) := by
  induction cs with
  | nil => rfl
  | cons c cs ih => simp [readString_escapeChar, ih]

/-! ## numbers -/

/-- A text that does not go on with a number before it. -/
def EndsNumber (rest : List Char) : Prop :=
  ∀ c, rest.head? = some c →
    c.isDigit = false ∧ c ≠ '.' ∧ c ≠ 'e' ∧ c ≠ 'E' ∧ c ≠ '+' ∧ c ≠ '-'

theorem endsNumber_nil : EndsNumber [] := fun _ h => by simp at h

theorem takeDigits_append (cs : List Char) {rest : List Char} (h : EndsNumber rest) :
    takeDigits (cs ++ rest) = ((takeDigits cs).1, (takeDigits cs).2 ++ rest) := by
  induction cs with
  | nil =>
      cases rest with
      | nil => rfl
      | cons c rest => simp [takeDigits, (h c rfl).1]
  | cons c cs ih =>
      simp only [takeDigits, Prod.mk.injEq] at ih
      by_cases hc : c.isDigit <;> simp [takeDigits, hc, ih]

theorem takeFraction_append (cs : List Char) {rest : List Char} (h : EndsNumber rest) :
    takeFraction (cs ++ rest) = (takeFraction cs).map fun p => (p.1, p.2 ++ rest) := by
  cases cs with
  | nil =>
      cases rest with
      | nil => rfl
      | cons c rest => simp [takeFraction, (h c rfl).2.1]
  | cons c cs =>
      by_cases hc : c = '.'
      · subst hc
        simp only [List.cons_append, takeFraction, takeDigits_append cs h]
        split <;> rfl
      · simp [takeFraction, hc]

theorem takeExponent_after_append (cs : List Char) {rest : List Char} (h : EndsNumber rest) :
    takeExponent.after (cs ++ rest) =
      (takeExponent.after cs).map fun p => (p.1, p.2 ++ rest) := by
  have hrest : takeExponent.after rest = none := by
    cases rest with
    | nil => rfl
    | cons c rest =>
        obtain ⟨hdigit, _, _, _, hplus, hminus⟩ := h c rfl
        simp [takeExponent.after, hplus, hminus, takeDigits, hdigit]
  cases cs with
  | nil => simpa [takeExponent.after, takeDigits] using hrest
  | cons c cs =>
      by_cases hplus : c = '+'
      · subst hplus
        simp only [List.cons_append, takeExponent.after, takeDigits_append cs h]
        split <;> rfl
      by_cases hminus : c = '-'
      · subst hminus
        simp only [List.cons_append, takeExponent.after, takeDigits_append cs h]
        split <;> rfl
      · have hdigits : takeDigits (c :: (cs ++ rest)) =
            ((takeDigits (c :: cs)).1, (takeDigits (c :: cs)).2 ++ rest) :=
          takeDigits_append (c :: cs) h
        simp [takeExponent.after, hplus, hminus, hdigits, apply_ite]

theorem takeExponent_append (cs : List Char) {rest : List Char} (h : EndsNumber rest) :
    takeExponent (cs ++ rest) = (takeExponent cs).map fun p => (p.1, p.2 ++ rest) := by
  cases cs with
  | nil =>
      cases rest with
      | nil => rfl
      | cons c rest => simp [takeExponent, (h c rfl).2.2.1, (h c rfl).2.2.2.1]
  | cons c cs =>
      by_cases hlower : c = 'e'
      · subst hlower
        simp only [List.cons_append, takeExponent, takeExponent_after_append cs h]
        cases takeExponent.after cs <;> rfl
      by_cases hupper : c = 'E'
      · subst hupper
        simp only [List.cons_append, takeExponent, takeExponent_after_append cs h]
        cases takeExponent.after cs <;> rfl
      · simp [takeExponent, hlower, hupper]

/-- A number behind its sign. -/
def readUnsigned (negative : Bool) (cs : List Char) : Option (Json × List Char) := do
  let (whole, cs) := takeDigits cs
  if whole.isEmpty ∨ (whole.head? = some 0 ∧ 1 < whole.length) then none
  else
    let (fraction, cs) ← takeFraction cs
    let (exponent, cs) ← takeExponent cs
    let v ← match fraction, exponent with
      | none, none => ofWhole? negative whole
      | fraction, exponent => ofParts? negative whole (fraction.getD []) exponent
    pure (v, cs)

theorem readNumber_minus (cs : List Char) : readNumber ('-' :: cs) = readUnsigned true cs := rfl

theorem readNumber_eq {cs : List Char} (h : cs.head? ≠ some '-') :
    readNumber cs = readUnsigned false cs := by
  cases cs with
  | nil => rfl
  | cons c cs =>
      simp only [readNumber]
      split
      next heq => exact absurd (by rw [heq]; rfl) h
      next => rfl

/-- **A number is read the same whatever follows its end.** -/
theorem readUnsigned_append (negative : Bool) (cs : List Char) {rest : List Char}
    (h : EndsNumber rest) : readUnsigned negative (cs ++ rest) =
      (readUnsigned negative cs).map fun p => (p.1, p.2 ++ rest) := by
  simp only [readUnsigned, takeDigits_append cs h, takeFraction_append _ h]
  split
  · rfl
  cases takeFraction (takeDigits cs).2 with
  | none => rfl
  | some f =>
      simp only [Option.map_some, Option.bind_eq_bind, Option.bind_some,
        takeExponent_append _ h]
      cases takeExponent f.2 with
      | none => rfl
      | some e =>
          obtain ⟨exponent, cs₂⟩ := e
          obtain ⟨fraction, cs₁⟩ := f
          cases fraction <;> cases exponent <;>
            simp only [Option.map_some, Option.bind_some, Option.map_bind] <;> rfl

/-- What stands behind a number does not matter. -/
theorem readNumber_append (cs : List Char) {rest : List Char} (h : EndsNumber rest) :
    readNumber (cs ++ rest) = (readNumber cs).map fun p => (p.1, p.2 ++ rest) := by
  by_cases hsign : cs.head? = some '-'
  · obtain ⟨cs, rfl⟩ := List.head?_eq_some_iff.1 hsign
    exact readUnsigned_append true cs h
  · have hsign' : (cs ++ rest).head? ≠ some '-' := by
      cases cs with
      | nil => exact fun he => (h _ he).2.2.2.2.2 rfl
      | cons c cs => exact hsign
    rw [readNumber_eq hsign, readNumber_eq hsign', readUnsigned_append false cs h]

/-- A number starts with a digit or with its sign. -/
theorem head_of_readNumber {cs : List Char} {p : Json × List Char} (h : readNumber cs = some p) :
    ∃ c cs', cs = c :: cs' ∧ (c.isDigit ∨ c = '-') := by
  cases cs with
  | nil => simp [readNumber, takeDigits] at h
  | cons c cs =>
      refine ⟨c, cs, rfl, ?_⟩
      by_cases hsign : c = '-'
      · exact .inr hsign
      by_cases hdigit : c.isDigit
      · exact .inl hdigit
      · rw [readNumber_eq (by simpa using hsign)] at h
        simp [readUnsigned, takeDigits, hdigit] at h

/-! ## integers -/

theorem takeDigits_toDigits (n : Nat) :
    takeDigits (Nat.toDigits 10 n) = ((Nat.toDigits 10 n).map fun c => c.toNat - 48, []) := by
  have hall : ∀ c ∈ Nat.toDigits 10 n, c.isDigit = true :=
    fun c hc => Nat.isDigit_of_mem_toDigits (b := 10) (by decide) (by decide) hc
  simp [takeDigits, List.takeWhile_eq_self_iff.2 hall, List.dropWhile_eq_nil_iff.2 hall]

theorem digitsValue_toDigits (n : Nat) :
    digitsValue ((Nat.toDigits 10 n).map fun c => c.toNat - 48) = n := by
  have h := Nat.ofDigitChars_ten_toDigits (n := n)
  rw [Nat.ofDigitChars] at h
  rw [digitsValue, List.foldl_map]
  exact h

/-- Decimal digits have no zero in front, unless it is the only one. -/
theorem toDigits_eq_of_head {n : Nat} (h : (Nat.toDigits 10 n).head? = some '0') :
    Nat.toDigits 10 n = ['0'] := by
  induction n using Nat.strongRecOn with
  | ind n ih =>
      have hdigit : ∀ d < 10, [Nat.digitChar d].head? = some '0' → d = 0 := by decide
      by_cases hn : n < 10
      · rw [Nat.toDigits_of_lt_base hn] at h ⊢
        rw [hdigit n hn h]; rfl
      · rw [Nat.toDigits_of_base_le (by decide) (Nat.le_of_not_lt hn),
          List.head?_append, Option.or_of_isSome (by simp [Nat.toDigits_ne_nil])] at h
        have hzero := ih (n / 10) (by omega) h
        have hvalue := Nat.ofDigitChars_ten_toDigits (n := n / 10)
        rw [hzero] at hvalue
        exact absurd hvalue.symm (by change ¬ n / 10 = 0; omega)

theorem eq_zero_of_isDigit {c : Char} (hc : c.isDigit = true) (h : c.toNat - 48 = 0) : c = '0' := by
  have hleast : 48 ≤ c.toNat := (Char.isDigit_iff_toNat.1 hc).1
  exact Text.toNat_inj (show c.toNat = 48 by omega)

/-- A written natural number is read as a whole one. -/
theorem readUnsigned_toDigits (negative : Bool) (n : Nat) :
    readUnsigned negative (Nat.toDigits 10 n) =
      (ofWhole? negative ((Nat.toDigits 10 n).map fun c => c.toNat - 48)).map fun v => (v, []) := by
  have hlead : ¬ (((Nat.toDigits 10 n).map fun c => c.toNat - 48).isEmpty ∨
      (((Nat.toDigits 10 n).map fun c => c.toNat - 48).head? = some 0 ∧
        1 < ((Nat.toDigits 10 n).map fun c => c.toNat - 48).length)) := by
    rintro (hempty | ⟨hzero, hmore⟩)
    · simp [Nat.toDigits_ne_nil] at hempty
    · rw [List.head?_map, Option.map_eq_some_iff] at hzero
      obtain ⟨c, hc, hzero⟩ := hzero
      have hdigit := Nat.isDigit_of_mem_toDigits (b := 10) (by decide) (by decide)
        (List.mem_of_head? hc)
      rw [eq_zero_of_isDigit hdigit hzero] at hc
      rw [toDigits_eq_of_head hc] at hmore
      simp at hmore
  simp only [readUnsigned, takeDigits_toDigits, if_neg hlead]
  cases ofWhole? negative ((Nat.toDigits 10 n).map fun c => c.toNat - 48) <;> rfl

/-- An integer of 64 bits comes back from its digits. -/
theorem readNumber_intChars {n : Int} (least : -(Nat.pow 2 63 : Int) ≤ n)
    (most : n < Nat.pow 2 64) : readNumber (intChars n) = some (.int n, []) := by
  unfold intChars
  split
  next hneg =>
    have hwhole : ofWhole? true ((Nat.toDigits 10 n.natAbs).map fun c => c.toNat - 48) =
        some (.int n) := by
      simp only [ofWhole?, digitsValue_toDigits, Bool.not_true, Bool.false_and, Bool.true_and,
        Bool.and_eq_true, decide_eq_true_eq]
      rw [if_neg (by simp), if_pos (by omega)]
      congr 2; omega
    rw [readNumber_minus, readUnsigned_toDigits, hwhole]; rfl
  next hpos =>
    have hwhole : ofWhole? false ((Nat.toDigits 10 n.natAbs).map fun c => c.toNat - 48) =
        some (.int n) := by
      simp only [ofWhole?, digitsValue_toDigits, Bool.not_false, Bool.true_and, decide_eq_true_eq]
      rw [if_pos (by omega)]
      congr 2; omega
    have hsign : (Nat.toDigits 10 n.natAbs).head? ≠ some '-' := fun h => by
      have := Nat.isDigit_of_mem_toDigits (b := 10) (by decide) (by decide) (List.mem_of_head? h)
      simp at this
    rw [readNumber_eq hsign, readUnsigned_toDigits, hwhole]; rfl

/-! ## documents -/

mutual

/-- What is written stands in front of what follows. -/
theorem write_append (v : Json) (rest : List Char) : write v rest = write v [] ++ rest := by
  cases v with
  | null => rfl
  | bool b => cases b <;> rfl
  | int n | float x | str s => rw [write, write, List.append_nil]
  | arr items =>
      rw [write, write, writeItems_append items (']' :: rest), writeItems_append items [']']]
      simp only [List.cons_append, List.append_assoc, List.nil_append]
  | obj members =>
      rw [write, write, writeMembers_append members ('\x7d' :: rest),
        writeMembers_append members ['\x7d']]
      simp only [List.cons_append, List.append_assoc, List.nil_append]

theorem writeItems_append (items : List Json) (rest : List Char) :
    writeItems items rest = writeItems items [] ++ rest := by
  cases items with
  | nil => rfl
  | cons v items => cases items with
    | nil => exact write_append v rest
    | cons w more =>
        rw [writeItems, writeItems, writeItems_append (w :: more) rest,
          write_append v (',' :: (writeItems (w :: more) [] ++ rest)),
          write_append v (',' :: writeItems (w :: more) [])]
        simp only [List.cons_append, List.append_assoc]

theorem writeMembers_append (members : List (String × Json)) (rest : List Char) :
    writeMembers members rest = writeMembers members [] ++ rest := by
  cases members with
  | nil => rfl
  | cons p members =>
      obtain ⟨k, v⟩ := p
      cases members with
      | nil =>
          rw [writeMembers, writeMembers, write_append v rest]
          simp only [List.cons_append, List.append_assoc]
      | cons m more =>
          rw [writeMembers, writeMembers, writeMembers_append (m :: more) rest,
            write_append v (',' :: (writeMembers (m :: more) [] ++ rest)),
            write_append v (',' :: writeMembers (m :: more) [])]
          simp only [List.cons_append, List.append_assoc]

end

/-- The character can start a document. -/
def Starts (c : Char) : Prop := isGap c = false ∧ c ≠ ']' ∧ c ≠ '\x7d'

instance (c : Char) : Decidable (Starts c) := inferInstanceAs (Decidable (_ ∧ _))

theorem starts_of_number {c : Char} (h : c.isDigit ∨ c = '-') : Starts c := by
  have hne : ∀ d : Char, d.isDigit = false → d ≠ '-' → c ≠ d := by
    rintro d hdigit hsign rfl
    exact h.elim (by simp [hdigit]) hsign
  simp [Starts, isGap, hne]

theorem skipGap_of_starts {c : Char} {cs : List Char} (h : Starts c) :
    skipGap (c :: cs) = c :: cs := by
  simp [skipGap, h.1]

/-- A written value has no gap in front of it. -/
theorem skipGap_write_of_starts {v : Json} (h : ∃ c cs, write v [] = c :: cs ∧ Starts c)
    (rest : List Char) : skipGap (write v rest) = write v rest := by
  obtain ⟨c, cs, hv, hc⟩ := h
  rw [write_append, hv]
  exact skipGap_of_starts hc

theorem skipGap_colon (cs : List Char) : skipGap (':' :: cs) = ':' :: cs := rfl

theorem skipGap_comma (cs : List Char) : skipGap (',' :: cs) = ',' :: cs := rfl

theorem skipGap_bracket (cs : List Char) : skipGap (']' :: cs) = ']' :: cs := rfl

theorem skipGap_brace (cs : List Char) : skipGap ('\x7d' :: cs) = '\x7d' :: cs := rfl

/-- The document comes back from its text at a depth, whatever follows. -/
structure Reads (depth : Nat) (v : Json) : Prop where
  starts : ∃ c cs, write v [] = c :: cs ∧ Starts c
  reads (fuel : Nat) (rest : List Char) (ends : EndsNumber rest)
    (enough : 2 * (write v []).length ≤ fuel) : readValue fuel depth (write v rest) = some (v, rest)

theorem Reads.skipGap_write {depth : Nat} {v : Json} (h : Reads depth v) (rest : List Char) :
    skipGap (write v rest) = write v rest := skipGap_write_of_starts h.starts rest

theorem readValue_of_readNumber {cs : List Char} {p : Json × List Char} (fuel depth : Nat)
    (h : readNumber cs = some p) : readValue (fuel + 1) depth cs = some p := by
  obtain ⟨c, cs', rfl, hc⟩ := head_of_readNumber h
  have hne : ∀ d : Char, d.isDigit = false → d ≠ '-' → c ≠ d := by
    rintro d hdigit hsign rfl
    exact hc.elim (by simp [hdigit]) hsign
  rw [← h]
  simp [readValue, hne]

/-- A number that reads back makes a document that does. -/
theorem reads_of_readNumber {depth : Nat} {v : Json} {cs : List Char}
    (hwrite : ∀ rest, write v rest = cs ++ rest) (h : readNumber cs = some (v, [])) :
    Reads depth v where
  starts := by
    obtain ⟨c, cs', hcs, hc⟩ := head_of_readNumber h
    exact ⟨c, cs', by rw [hwrite, hcs]; simp, starts_of_number hc⟩
  reads fuel rest ends enough := by
    obtain ⟨c, cs', hcs, _⟩ := head_of_readNumber h
    obtain ⟨fuel, rfl⟩ : ∃ n, fuel = n + 1 := by
      refine ⟨fuel - 1, ?_⟩
      rw [hwrite, hcs] at enough
      simp at enough; omega
    apply readValue_of_readNumber
    rw [hwrite, readNumber_append _ ends, h]; rfl

theorem endsNumber_cons {c : Char} {rest : List Char}
    (h : c.isDigit = false ∧ c ≠ '.' ∧ c ≠ 'e' ∧ c ≠ 'E' ∧ c ≠ '+' ∧ c ≠ '-') :
    EndsNumber (c :: rest) := by
  intro d hd
  cases hd
  exact h

theorem endsNumber_comma (cs : List Char) : EndsNumber (',' :: cs) := endsNumber_cons (by decide)

theorem endsNumber_bracket (cs : List Char) : EndsNumber (']' :: cs) := endsNumber_cons (by decide)

theorem endsNumber_brace (cs : List Char) : EndsNumber ('\x7d' :: cs) := endsNumber_cons (by decide)

/-- **Written items are read back, and the bracket behind them taken.** -/
theorem readItems_writeItems {depth : Nat} {items : List Json} (hne : items ≠ [])
    (h : ∀ v ∈ items, Reads depth v) (rest : List Char) (fuel : Nat)
    (enough : 2 * (writeItems items []).length + 1 ≤ fuel) :
    readItems fuel depth (writeItems items (']' :: rest)) = some (items, rest) := by
  induction items generalizing fuel with
  | nil => exact absurd rfl hne
  | cons v items ih =>
      obtain ⟨fuel, rfl⟩ : ∃ n, fuel = n + 1 := ⟨fuel - 1, by omega⟩
      have hv := (h v (List.mem_cons_self ..)).reads fuel
      cases items with
      | nil =>
          rw [writeItems] at enough ⊢
          simp only [readItems, hv _ (endsNumber_bracket _) (by omega), skipGap_bracket]
      | cons w more =>
          rw [writeItems, write_append] at enough
          simp only [List.length_append, List.length_cons] at enough
          have hmore := ih (by simp) (fun v hv => h v (List.mem_cons_of_mem _ hv)) fuel (by omega)
          have hskip : skipGap (writeItems (w :: more) (']' :: rest)) =
              writeItems (w :: more) (']' :: rest) := by
            have hw := h w (by simp)
            cases more with
            | nil => exact hw.skipGap_write _
            | cons x more => exact hw.skipGap_write _
          simp only [writeItems, readItems, hv _ (endsNumber_comma _) (by omega),
            skipGap_comma, hskip, hmore, Option.map_some]

/-- A written text is read back up to its closing quote. -/
theorem readString_stringChars (s : String) (rest : List Char) :
    ∃ cs, stringChars s ++ rest = '"' :: cs ∧ readString cs = some (s.toList, rest) :=
  ⟨s.toList.flatMap escapeChar ++ '"' :: rest, by simp [stringChars],
    readString_flatMap_escapeChar _ _⟩

/-- **Written members are read back, and the brace behind them taken.** -/
theorem readMembers_writeMembers {depth : Nat} {members : List (String × Json)} (hne : members ≠ [])
    (h : ∀ p ∈ members, Reads depth p.2) (rest : List Char) (fuel : Nat)
    (enough : 2 * (writeMembers members []).length + 1 ≤ fuel) :
    readMembers fuel depth (writeMembers members ('\x7d' :: rest)) = some (members, rest) := by
  induction members generalizing fuel with
  | nil => exact absurd rfl hne
  | cons p members ih =>
      obtain ⟨k, v⟩ := p
      obtain ⟨fuel, rfl⟩ : ∃ n, fuel = n + 1 := ⟨fuel - 1, by omega⟩
      have hv : Reads depth v := h _ (List.mem_cons_self ..)
      cases members with
      | nil =>
          simp only [writeMembers, List.length_append, List.length_cons] at enough
          obtain ⟨cs, hcs, hk⟩ := readString_stringChars k (':' :: write v ('\x7d' :: rest))
          rw [writeMembers, hcs, readMembers, hk]
          simp only [skipGap_colon, hv.skipGap_write, hv.reads fuel _ (endsNumber_brace _)
            (by omega), skipGap_brace, String.ofList_toList]
      | cons m more =>
          simp only [writeMembers, List.length_append, List.length_cons, write_append v (',' :: _)]
            at enough
          have hmore := ih (by simp) (fun p hp => h p (List.mem_cons_of_mem _ hp)) fuel (by omega)
          have hskip : skipGap (writeMembers (m :: more) ('\x7d' :: rest)) =
              writeMembers (m :: more) ('\x7d' :: rest) := by
            cases more <;> rfl
          obtain ⟨cs, hcs, hk⟩ := readString_stringChars k
            (':' :: write v (',' :: writeMembers (m :: more) ('\x7d' :: rest)))
          rw [writeMembers, hcs, readMembers, hk]
          simp only [skipGap_colon, hv.skipGap_write, hv.reads fuel _ (endsNumber_comma _)
            (by omega), skipGap_comma, hskip, hmore, String.ofList_toList, Option.map_some]

/-- A document that reads back from behind its first character. -/
theorem reads_of_cons {depth : Nat} {v : Json} (c : Char) (cs : List Char)
    (hwrite : ∀ rest, write v rest = c :: (cs ++ rest)) (hc : Starts c)
    (h : ∀ fuel rest, 2 * cs.length + 1 ≤ fuel →
      readValue (fuel + 1) depth (c :: (cs ++ rest)) = some (v, rest)) : Reads depth v where
  starts := ⟨c, cs, by simp [hwrite], hc⟩
  reads fuel rest _ enough := by
    rw [hwrite] at enough ⊢
    simp only [List.append_nil, List.length_cons] at enough
    obtain ⟨fuel, rfl⟩ : ∃ n, fuel = n + 1 := ⟨fuel - 1, by omega⟩
    exact h fuel rest (by omega)

/-- An array that is not empty is read item by item. -/
theorem readValue_bracket {c : Char} {cs cs' : List Char} (fuel depth : Nat)
    (hcs : skipGap cs = c :: cs') (hc : c ≠ ']') :
    readValue (fuel + 1) (depth + 1) ('[' :: cs) =
      (readItems fuel depth (c :: cs')).map fun p => (arr p.1, p.2) := by
  simp [readValue, hcs, hc]

/-- An object that is not empty is read member by member. -/
theorem readValue_brace {c : Char} {cs cs' : List Char} (fuel depth : Nat)
    (hcs : skipGap cs = c :: cs') (hc : c ≠ '\x7d') :
    readValue (fuel + 1) (depth + 1) ('\x7b' :: cs) =
      (readMembers fuel depth (c :: cs')).map fun p => (obj p.1, p.2) := by
  simp [readValue, hcs, hc]

theorem writeItems_cons (v : Json) (items : List Json) (rest : List Char) :
    ∃ rest', writeItems (v :: items) rest = write v rest' := by
  cases items <;> exact ⟨_, rfl⟩

theorem writeMembers_cons (p : String × Json) (members : List (String × Json)) (rest : List Char) :
    ∃ cs, writeMembers (p :: members) rest = '"' :: cs := by
  cases members <;> exact ⟨_, rfl⟩

/-- **A document comes back from its text.** -/
theorem reads_of_isDocument {v : Json} (hv : IsDocument Binary64.ReadsBack v) {depth : Nat}
    (hdepth : v.depth ≤ depth) : Reads depth v := by
  induction v using Json.induction generalizing depth with
  | null => exact reads_of_cons _ _ (fun _ => rfl) (by decide) fun _ _ _ => rfl
  | bool b => cases b <;> exact reads_of_cons _ _ (fun _ => rfl) (by decide) fun _ _ _ => rfl
  | int n => cases hv with
    | int least most => exact reads_of_readNumber (fun _ => rfl) (readNumber_intChars least most)
  | float x => cases hv with
    | float h => exact reads_of_readNumber (fun _ => rfl) h
  | str s =>
      refine reads_of_cons '"' (s.toList.flatMap escapeChar ++ ['"'])
        (fun rest => by simp [write, stringChars]) (by decide) fun fuel rest _ => ?_
      rw [List.append_assoc]
      simp only [readValue, List.cons_append, List.nil_append, readString_flatMap_escapeChar,
        Option.map_some, String.ofList_toList]
  | arr items ih => cases hv with
    | arr hitems =>
      refine reads_of_cons '[' (writeItems items [] ++ [']'])
        (fun rest => by rw [write, writeItems_append]; simp) (by decide) fun fuel rest enough => ?_
      rw [List.length_append, List.length_singleton] at enough
      rw [Json.depth] at hdepth
      obtain ⟨depth, rfl⟩ : ∃ d, depth = d + 1 := ⟨depth - 1, by omega⟩
      have hreads : ∀ v ∈ items, Reads depth v := fun v hv =>
        ih v hv (hitems v hv)
          (Nat.le_trans (depth_le_of_mem_items hv) (Nat.le_of_succ_le_succ hdepth))
      cases items with
      | nil => rfl
      | cons w more =>
          obtain ⟨rest', hrest'⟩ := writeItems_cons w more (']' :: rest)
          obtain ⟨c, cs, hw, hc⟩ := (hreads w (List.mem_cons_self ..)).starts
          have hcs : writeItems (w :: more) (']' :: rest) = c :: (cs ++ rest') := by
            rw [hrest', write_append, hw]; rfl
          have hread := readItems_writeItems (by simp) hreads rest fuel (by omega)
          rw [List.append_assoc, List.singleton_append, ← writeItems_append]
          rw [hcs] at hread ⊢
          rw [readValue_bracket fuel depth (skipGap_of_starts hc) hc.2.1, hread]
          rfl
  | obj members ih => cases hv with
    | obj hmembers _ =>
      refine reads_of_cons '\x7b' (writeMembers members [] ++ ['\x7d'])
        (fun rest => by rw [write, writeMembers_append]; simp) (by decide)
        fun fuel rest enough => ?_
      rw [List.length_append, List.length_singleton] at enough
      rw [Json.depth] at hdepth
      obtain ⟨depth, rfl⟩ : ∃ d, depth = d + 1 := ⟨depth - 1, by omega⟩
      have hreads : ∀ p ∈ members, Reads depth p.2 := fun p hp =>
        ih p hp (hmembers p hp)
          (Nat.le_trans (depth_le_of_mem_members hp) (Nat.le_of_succ_le_succ hdepth))
      cases members with
      | nil => rfl
      | cons p more =>
          obtain ⟨cs, hcs⟩ := writeMembers_cons p more ('\x7d' :: rest)
          have hread := readMembers_writeMembers (by simp) hreads rest fuel (by omega)
          rw [List.append_assoc, List.singleton_append, ← writeMembers_append]
          rw [hcs] at hread ⊢
          rw [readValue_brace fuel depth (skipGap_of_starts (by decide)) (by decide), hread]
          rfl

/-- **A document is read from its text**, whatever stands behind it. -/
theorem readPrefix?_write {v : Json} (hv : IsDocument Binary64.ReadsBack v)
    (hdepth : v.depth ≤ maxDepth) {rest : List Char} (ends : EndsNumber rest) :
    readPrefix? (write v rest) = some (v, rest) := by
  have hreads := reads_of_isDocument hv hdepth
  rw [readPrefix?, hreads.skipGap_write]
  refine hreads.reads _ rest ends ?_
  rw [readerFuel, write_append v rest, List.length_append]
  omega

/-- A whole text gives back its document. -/
theorem ofChars?_write {v : Json} (hv : IsDocument Binary64.ReadsBack v)
    (hdepth : v.depth ≤ maxDepth) : ofChars? (write v []) = some v := by
  rw [ofChars?, readPrefix?_write hv hdepth endsNumber_nil]
  rfl

/-- **Two documents with one text are the same.** -/
theorem eq_of_write_eq {v w : Json} (hv : IsDocument Binary64.ReadsBack v)
    (hw : IsDocument Binary64.ReadsBack w) (h : write v [] = write w []) : v = w := by
  have hreadv := (reads_of_isDocument hv (Nat.le_max_left v.depth w.depth)).reads
    (2 * (write v []).length) [] endsNumber_nil (Nat.le_refl _)
  have hreadw := (reads_of_isDocument hw (Nat.le_max_right v.depth w.depth)).reads
    (2 * (write v []).length) [] endsNumber_nil (by rw [h])
  rw [h] at hreadv hreadw
  rw [hreadw] at hreadv
  cases hreadv
  rfl

/-! ## documents that are nested too deep -/

/-- The text of the document is refused at a depth, whatever follows. -/
structure Refuses (depth : Nat) (v : Json) : Prop where
  starts : ∃ c cs, write v [] = c :: cs ∧ Starts c
  refuses (fuel : Nat) (rest : List Char) (ends : EndsNumber rest)
    (enough : 2 * (write v []).length ≤ fuel) : readValue fuel depth (write v rest) = none

/-- Items are refused up to the first that is. -/
theorem readItems_eq_none {depth : Nat} {items : List Json}
    (h : ∀ v ∈ items, Reads depth v ∨ Refuses depth v) (hdeep : ∃ v ∈ items, Refuses depth v)
    (rest : List Char) (fuel : Nat) (enough : 2 * (writeItems items []).length + 1 ≤ fuel) :
    readItems fuel depth (writeItems items (']' :: rest)) = none := by
  induction items generalizing fuel with
  | nil => simp at hdeep
  | cons v items ih =>
      obtain ⟨fuel, rfl⟩ : ∃ n, fuel = n + 1 := ⟨fuel - 1, by omega⟩
      obtain ⟨hfirst, hrest⟩ := List.forall_mem_cons.1 h
      have hcases : Refuses depth v ∨ Reads depth v ∧ ∃ w ∈ items, Refuses depth w := by
        obtain ⟨w, hw, hrefuses⟩ := hdeep
        obtain rfl | hw := List.mem_cons.1 hw
        · exact .inl hrefuses
        · exact hfirst.elim (fun hv => .inr ⟨hv, w, hw, hrefuses⟩) .inl
      cases items with
      | nil =>
          obtain hv | ⟨-, w, hw, -⟩ := hcases
          · rw [writeItems] at enough
            simp only [writeItems, readItems, hv.refuses fuel _ (endsNumber_bracket _) (by omega)]
          · simp at hw
      | cons w more =>
          rw [writeItems, write_append] at enough
          simp only [List.length_append, List.length_cons] at enough
          obtain hv | ⟨hv, hmore⟩ := hcases
          · simp only [writeItems, readItems, hv.refuses fuel _ (endsNumber_comma _) (by omega)]
          · have hskip : skipGap (writeItems (w :: more) (']' :: rest)) =
                writeItems (w :: more) (']' :: rest) := by
              obtain ⟨rest', hrest'⟩ := writeItems_cons w more (']' :: rest)
              rw [hrest']
              exact skipGap_write_of_starts
                ((hrest w (List.mem_cons_self ..)).elim Reads.starts Refuses.starts) _
            simp only [writeItems, readItems, hv.reads fuel _ (endsNumber_comma _) (by omega),
              skipGap_comma, hskip, ih hrest hmore fuel (by omega), Option.map_none]

/-- Members are refused up to the first that is. -/
theorem readMembers_eq_none {depth : Nat} {members : List (String × Json)}
    (h : ∀ p ∈ members, Reads depth p.2 ∨ Refuses depth p.2)
    (hdeep : ∃ p ∈ members, Refuses depth p.2) (rest : List Char) (fuel : Nat)
    (enough : 2 * (writeMembers members []).length + 1 ≤ fuel) :
    readMembers fuel depth (writeMembers members ('\x7d' :: rest)) = none := by
  induction members generalizing fuel with
  | nil => simp at hdeep
  | cons p members ih =>
      obtain ⟨k, v⟩ := p
      obtain ⟨fuel, rfl⟩ : ∃ n, fuel = n + 1 := ⟨fuel - 1, by omega⟩
      obtain ⟨hfirst, hrest⟩ := List.forall_mem_cons.1 h
      have hcases : Refuses depth v ∨ Reads depth v ∧ ∃ q ∈ members, Refuses depth q.2 := by
        obtain ⟨q, hq, hrefuses⟩ := hdeep
        obtain rfl | hq := List.mem_cons.1 hq
        · exact .inl hrefuses
        · exact hfirst.elim (fun hv => .inr ⟨hv, q, hq, hrefuses⟩) .inl
      have hskipv : ∀ rest, skipGap (write v rest) = write v rest :=
        skipGap_write_of_starts (hfirst.elim Reads.starts Refuses.starts)
      cases members with
      | nil =>
          obtain hv | ⟨-, q, hq, -⟩ := hcases
          · simp only [writeMembers, List.length_append, List.length_cons] at enough
            obtain ⟨cs, hcs, hk⟩ := readString_stringChars k (':' :: write v ('\x7d' :: rest))
            rw [writeMembers, hcs, readMembers, hk]
            simp only [skipGap_colon, hskipv, hv.refuses fuel _ (endsNumber_brace _) (by omega)]
          · simp at hq
      | cons m more =>
          simp only [writeMembers, List.length_append, List.length_cons, write_append v (',' :: _)]
            at enough
          obtain ⟨cs, hcs, hk⟩ := readString_stringChars k
            (':' :: write v (',' :: writeMembers (m :: more) ('\x7d' :: rest)))
          rw [writeMembers, hcs, readMembers, hk]
          obtain hv | ⟨hv, hmore⟩ := hcases
          · simp only [skipGap_colon, hskipv, hv.refuses fuel _ (endsNumber_comma _) (by omega)]
          · have hskip : skipGap (writeMembers (m :: more) ('\x7d' :: rest)) =
                writeMembers (m :: more) ('\x7d' :: rest) := by
              obtain ⟨cs, hcs⟩ := writeMembers_cons m more ('\x7d' :: rest)
              rw [hcs]
              rfl
            simp only [skipGap_colon, hskipv, hv.reads fuel _ (endsNumber_comma _) (by omega),
              skipGap_comma, hskip, ih hrest hmore fuel (by omega), Option.map_none]

/-- **A document that is nested too deep is refused.** -/
theorem refuses_of_lt {v : Json} (hv : IsDocument Binary64.ReadsBack v) {depth : Nat}
    (hdepth : depth < v.depth) : Refuses depth v := by
  have hstarts := (reads_of_isDocument hv (Nat.le_refl _)).starts
  induction v using Json.induction generalizing depth with
  | null | bool | int | float | str => exact absurd hdepth (Nat.not_lt_zero _)
  | arr items ih => cases hv with
    | arr hitems =>
      refine ⟨hstarts, fun fuel rest _ enough => ?_⟩
      rw [write, List.length_cons, writeItems_append, List.length_append] at enough
      obtain ⟨fuel, rfl⟩ : ∃ n, fuel = n + 1 := ⟨fuel - 1, by omega⟩
      rw [write]
      cases depth with
      | zero => rfl
      | succ depth =>
          have hdeep : ∃ v ∈ items, depth < v.depth := by
            by_contra hall
            push Not at hall
            exact absurd (depthOfItems_le hall) (Nat.not_le.2 (Nat.lt_of_succ_lt_succ hdepth))
          have hstart : ∀ v ∈ items, ∃ c cs, write v [] = c :: cs ∧ Starts c := fun v hv =>
            (reads_of_isDocument (hitems v hv) (Nat.le_refl _)).starts
          have hor : ∀ v ∈ items, Reads depth v ∨ Refuses depth v := fun v hv =>
            (Nat.lt_or_ge depth v.depth).symm.imp (reads_of_isDocument (hitems v hv))
              fun h => ih v hv (hitems v hv) h (hstart v hv)
          obtain ⟨u, hu, hlt⟩ := hdeep
          have hread := readItems_eq_none hor
            ⟨u, hu, ih u hu (hitems u hu) hlt (hstart u hu)⟩ rest fuel (by omega)
          cases items with
          | nil => simp at hu
          | cons w more =>
              obtain ⟨rest', hrest'⟩ := writeItems_cons w more (']' :: rest)
              obtain ⟨c, cs, hw, hc⟩ := hstart w (List.mem_cons_self ..)
              have hcs : writeItems (w :: more) (']' :: rest) = c :: (cs ++ rest') := by
                rw [hrest', write_append, hw]; rfl
              rw [hcs] at hread ⊢
              rw [readValue_bracket fuel depth (skipGap_of_starts hc) hc.2.1, hread]
              rfl
  | obj members ih => cases hv with
    | obj hmembers _ =>
      refine ⟨hstarts, fun fuel rest _ enough => ?_⟩
      rw [write, List.length_cons, writeMembers_append, List.length_append] at enough
      obtain ⟨fuel, rfl⟩ : ∃ n, fuel = n + 1 := ⟨fuel - 1, by omega⟩
      rw [write]
      cases depth with
      | zero => rfl
      | succ depth =>
          have hdeep : ∃ p ∈ members, depth < p.2.depth := by
            by_contra hall
            push Not at hall
            exact absurd (depthOfMembers_le hall) (Nat.not_le.2 (Nat.lt_of_succ_lt_succ hdepth))
          have hstart : ∀ p ∈ members, ∃ c cs, write p.2 [] = c :: cs ∧ Starts c := fun p hp =>
            (reads_of_isDocument (hmembers p hp) (Nat.le_refl _)).starts
          have hor : ∀ p ∈ members, Reads depth p.2 ∨ Refuses depth p.2 := fun p hp =>
            (Nat.lt_or_ge depth p.2.depth).symm.imp (reads_of_isDocument (hmembers p hp))
              fun h => ih p hp (hmembers p hp) h (hstart p hp)
          obtain ⟨q, hq, hlt⟩ := hdeep
          have hread := readMembers_eq_none hor
            ⟨q, hq, ih q hq (hmembers q hq) hlt (hstart q hq)⟩ rest fuel (by omega)
          cases members with
          | nil => simp at hq
          | cons p more =>
              obtain ⟨cs, hcs⟩ := writeMembers_cons p more ('\x7d' :: rest)
              rw [hcs] at hread ⊢
              rw [readValue_brace fuel depth (skipGap_of_starts (by decide)) (by decide), hread]
              rfl

/-- A whole text gives back its document or nothing. -/
theorem ofChars?_write_eq {v : Json} (hv : IsDocument Binary64.ReadsBack v) :
    ofChars? (write v []) = if v.depth ≤ maxDepth then some v else none := by
  split
  next h => exact ofChars?_write hv h
  next h =>
    have hrefuses := refuses_of_lt hv (Nat.lt_of_not_le h)
    have hread : readPrefix? (write v []) = none := by
      rw [readPrefix?, skipGap_write_of_starts hrefuses.starts]
      refine hrefuses.refuses _ [] endsNumber_nil ?_
      rw [readerFuel]
      omega
    rw [ofChars?, hread]

/-! ## line breaks -/

theorem newline_notMem_toDigits (n : Nat) : '\n' ∉ Nat.toDigits 10 n := fun h =>
  absurd (Nat.isDigit_of_mem_toDigits (by decide) (by decide) h) (by decide)

theorem newline_notMem_escapeChar (c : Char) : '\n' ∉ escapeChar c := by
  have hdigit : ∀ n < 16, '\n' ≠ Nat.digitChar n := by decide
  unfold escapeChar
  repeat' split
  case isFalse.isFalse.isFalse.isFalse.isFalse.isFalse.isFalse.isTrue h =>
    simp [hdigit (c.toNat / 16) (by omega), hdigit (c.toNat % 16) (by omega)]
  all_goals simp_all [eq_comm]

/-- A written text has no line break in it. -/
theorem newline_notMem_stringChars (s : String) : '\n' ∉ stringChars s := by
  simp [stringChars, newline_notMem_escapeChar]

theorem newline_notMem_chars (x : Binary64) : '\n' ∉ x.chars := by
  have hdigits := newline_notMem_toDigits
  have htake : ∀ n k, '\n' ∉ (Nat.toDigits 10 n).take k :=
    fun n k h => hdigits n (List.mem_of_mem_take h)
  have hdrop : ∀ n k, '\n' ∉ (Nat.toDigits 10 n).drop k :=
    fun n k h => hdigits n (List.mem_of_mem_drop h)
  have htail : ∀ n, '\n' ∉ (Nat.toDigits 10 n).tail := fun n h => hdigits n (List.mem_of_mem_tail h)
  simp only [Binary64.chars]
  repeat' split
  all_goals simp [hdigits, htake, hdrop, htail]

/-- The text of a document has a single line. -/
theorem newline_notMem_write (v : Json) : '\n' ∉ write v [] := by
  induction v using Json.induction with
  | null => decide
  | bool b => cases b <;> decide
  | int n =>
      rw [write, intChars]
      split <;> simp [newline_notMem_toDigits]
  | float x => simpa [write] using newline_notMem_chars x
  | str s => simpa [write] using newline_notMem_stringChars s
  | arr items ih =>
      have hitems : '\n' ∉ writeItems items [] := by
        induction items with
        | nil => simp [writeItems]
        | cons v items ih' =>
            obtain ⟨hv, hitems⟩ := List.forall_mem_cons.1 ih
            cases items with
            | nil => exact hv
            | cons w more =>
                rw [writeItems, write_append]
                simp [hv, ih' hitems]
      rw [write, writeItems_append]
      simp [hitems]
  | obj members ih =>
      have hmembers : '\n' ∉ writeMembers members [] := by
        induction members with
        | nil => simp [writeMembers]
        | cons p members ih' =>
            obtain ⟨k, v⟩ := p
            obtain ⟨hv, hmembers⟩ := List.forall_mem_cons.1 ih
            cases members with
            | nil => simp [writeMembers, newline_notMem_stringChars, hv]
            | cons m more =>
                rw [writeMembers, write_append]
                simp [newline_notMem_stringChars, hv, ih' hmembers]
      rw [write, writeMembers_append]
      simp [hmembers]

end Json

end TokenSale
