import Mathlib.Logic.Relation
import TokenSale.Proofs.JsonRecord
import TokenSale.Proofs.QuantityText
import TokenSale.Proofs.Readings
import TokenSale.Setup.SaleSetup

/-!
# TokenSale.Proofs.Spellings

The documents that spell an amount, a price or a rate in a configuration.  Four
readers take them apart by themselves; each accepts just these documents, and
gives what they spell.

* `Text.Loosened` — more separators between digits, and blanks at the ends;
* `Json.SpellsAmount`, `SpellsRatio`, `SpellsRate` — numbers as integers, texts
  or objects;
* `Setting.quantity?_ok_iff`, `price?_ok_iff`, `quote_ok_iff` — what is read of
  them;
* `Setting.spellsAmount_of_quantity?`, `spellsRatio_of_price?`,
  `spellsRate_of_anyQuote` — nothing else is read;
* `QuantityKind.Same` — two documents that spell the same.
-/

namespace TokenSale

open Json Directory

namespace Text

variable {cs cs' : List Char} {n m d e : Nat}

/-! ## separators and blanks -/

/-- A text with one more separator between its digits, or with blanks around it. -/
inductive Loosened : List Char → List Char → Prop
  | separated (before after : List Char) {c d : Char} (hc : c.isDigit = true)
    (hd : d.isDigit = true) :
    Loosened (before ++ c :: d :: after) (before ++ c :: '_' :: d :: after)
  | padded {cs : List Char} (lead trail : List Char) (h : ∀ c ∈ lead ++ trail, isBlank c = true) :
    Loosened cs (lead ++ cs ++ trail)

/-- Blanks around a numeral do not alter it. -/
theorem Numeral.padded (h : Numeral cs n) (lead trail : List Char)
    (hblank : ∀ c ∈ lead ++ trail, isBlank c = true) : Numeral (lead ++ cs ++ trail) n := by
  obtain ⟨lead', core, trail', rfl, hblank', hcore⟩ := h
  refine ⟨lead ++ lead', core, trail' ++ trail, by simp, fun c hc => ?_, hcore⟩
  simp only [List.mem_append] at hc hblank hblank'
  obtain (hc | hc) | hc | hc := hc
  · exact hblank c (.inl hc)
  · exact hblank' c (.inl hc)
  · exact hblank' c (.inr hc)
  · exact hblank c (.inr hc)

/-- What is not part of the beginning stands behind it. -/
theorem exists_of_append_eq {lead rest before after : List Char} {c : Char}
    (h : lead ++ rest = before ++ c :: after) (hc : c ∉ lead) :
    ∃ front, before = lead ++ front ∧ rest = front ++ c :: after := by
  obtain ⟨front, hfront, hrest⟩ | ⟨gap, hlead, hgap⟩ := List.append_eq_append_iff.1 h
  · exact ⟨front, hfront, hrest⟩
  · cases gap with
    | nil => exact ⟨[], by simpa using hlead.symm, by simpa using hgap.symm⟩
    | cons e gap =>
        obtain ⟨rfl, -⟩ := List.cons.inj (hgap.trans (List.cons_append ..))
        exact absurd (hlead ▸ by simp) hc

theorem Numeral.separated {before after : List Char} {c d : Char} (hc : c.isDigit = true)
    (hd : d.isDigit = true) (h : Numeral (before ++ c :: d :: after) n) :
    Numeral (before ++ c :: '_' :: d :: after) n := by
  obtain ⟨lead, core, trail, heq, hblank, hcore⟩ := h
  have hnot : ∀ {a : Char}, a.isDigit = true → a ∉ lead ++ trail := fun ha hmem => by
    have hfalse := isBlank_of_isDigit ha
    rw [hblank _ hmem] at hfalse
    contradiction
  -- the digits stand behind the blanks in front, and before those at the end
  rw [List.append_assoc] at heq
  obtain ⟨front, rfl, hrest⟩ :=
    exists_of_append_eq heq.symm fun hmem => hnot hc (List.mem_append_left _ hmem)
  have hreverse : trail.reverse ++ core.reverse = after.reverse ++ d :: (c :: front.reverse) := by
    simpa using congrArg List.reverse hrest
  obtain ⟨back, hafter, hback⟩ := exists_of_append_eq hreverse fun hmem =>
    hnot hd (List.mem_append_right _ (List.mem_reverse.1 hmem))
  have hafter : after = back.reverse ++ trail := by simpa using congrArg List.reverse hafter
  have hback : core = front ++ c :: d :: back.reverse := by
    simpa using congrArg List.reverse hback
  refine ⟨lead, front ++ c :: '_' :: d :: back.reverse, trail, by simp [hafter], hblank, ?_⟩
  have hfilter : (front ++ c :: '_' :: d :: back.reverse).filter (· ≠ '_') =
      core.filter (· ≠ '_') := by
    rw [hback]
    simp [List.filter_cons]
  exact ⟨hfilter ▸ hcore.ne_nil, hfilter ▸ hcore.digits, hfilter ▸ hcore.value⟩

/-- A numeral spelt more loosely is one of the same number. -/
theorem Numeral.loosened (h : Numeral cs n) (hloose : Loosened cs cs') : Numeral cs' n := by
  cases hloose with
  | separated before after hc hd => exact h.separated hc hd
  | padded lead trail hblank => exact h.padded lead trail hblank

/-- A separator stands on one side of the slash. -/
theorem Ratio.loosened (h : Ratio cs n d) (hloose : Loosened cs cs') : Ratio cs' n d := by
  obtain ⟨hn, rfl⟩ | ⟨before, after, rfl, hn, hd⟩ := h
  · exact .inl ⟨hn.loosened hloose, rfl⟩
  refine .inr ?_
  -- the slash is none of the two digits, so these are both before it or both after it
  generalize hwhole : before ++ '/' :: after = whole at hloose
  cases hloose with
  | padded lead trail hblank =>
      obtain ⟨hlead, htrail⟩ := List.forall_mem_append.1 hblank
      refine ⟨lead ++ before, after ++ trail, by simp [← hwhole], ?_, ?_⟩
      · simpa using hn.padded lead [] (by simpa using hlead)
      · simpa using hd.padded [] trail (by simpa using htrail)
  | @separated front back a b ha hb =>
      have hslash : '/'.isDigit = false := by decide
      obtain ⟨r, rfl, hr⟩ | ⟨r, rfl, hr⟩ := List.append_eq_append_iff.1 hwhole
      · match r with
        | [] =>
          obtain ⟨rfl, -⟩ := List.cons.inj hr
          simp [hslash] at ha
        | e :: r =>
          obtain ⟨rfl, rfl⟩ := List.cons.inj hr
          exact ⟨before, _, by simp, hn, hd.separated ha hb⟩
      · match r with
        | [] =>
          obtain ⟨rfl, -⟩ := List.cons.inj hr
          simp [hslash] at ha
        | [e] =>
          obtain ⟨-, hr⟩ := List.cons.inj hr
          obtain ⟨rfl, -⟩ := List.cons.inj hr
          simp [hslash] at hb
        | e :: e' :: r =>
          simp only [List.cons_append, List.cons.injEq] at hr
          obtain ⟨rfl, rfl, rfl⟩ := hr
          exact ⟨_, after, by simp, hn.separated ha hb, hd⟩

theorem Numeral.loosenings (h : Numeral cs n) (hloose : Relation.ReflTransGen Loosened cs cs') :
    Numeral cs' n := by
  induction hloose with
  | refl => exact h
  | tail _ hlast ih => exact ih.loosened hlast

theorem Ratio.loosenings (h : Ratio cs n d) (hloose : Relation.ReflTransGen Loosened cs cs') :
    Ratio cs' n d := by
  induction hloose with
  | refl => exact h
  | tail _ hlast ih => exact ih.loosened hlast

/-! ## what a text spells is determined -/

/-- A text is a numeral of one number only. -/
theorem Numeral.unique (h : Numeral cs n) (h' : Numeral cs m) : n = m :=
  (numeral_iff.1 h).value.symm.trans (numeral_iff.1 h').value

/-- A text is a ratio of one pair only. -/
theorem Ratio.unique (h : Ratio cs n d) (h' : Ratio cs m e) : n = m ∧ d = e := by
  obtain ⟨hn, rfl⟩ | ⟨before, after, heq, hn, hd⟩ := h <;>
    obtain ⟨hm, rfl⟩ | ⟨before', after', heq', hm, he⟩ := h'
  · exact ⟨hn.unique hm, rfl⟩
  · exact absurd (by simp [heq']) hn.slash_notMem
  · exact absurd (by simp [heq]) hm.slash_notMem
  · have hsplit := splitOnce_eq_some_iff.2 ⟨heq, hn.slash_notMem⟩
    rw [splitOnce_eq_some_iff.2 ⟨heq', hm.slash_notMem⟩] at hsplit
    cases hsplit
    exact ⟨hn.unique hm, hd.unique he⟩

end Text

/-! ## what a document spells -/

namespace Json

/-- A number, as an integer of 64 bits or as a text. -/
inductive SpellsAmount : Json → Nat → Prop
  | int {n : Nat} (h : n < Nat.pow 2 64) : SpellsAmount (.int n) n
  | str {s : String} {n : Nat} (h : Text.Numeral s.toList n) : SpellsAmount (.str s) n

/-- A ratio, as an integer for one or as a text. -/
inductive SpellsRatio : Json → Nat → Nat → Prop
  | int {n : Nat} (h : n < Nat.pow 2 64) : SpellsRatio (.int n) n 1
  | str {s : String} {n d : Nat} (h : Text.Ratio s.toList n d) : SpellsRatio (.str s) n d

/-- A ratio, in one of these ways or by its two sides. -/
inductive SpellsRate : Json → Nat → Nat → Prop
  | ratio {v : Json} {n d : Nat} (h : SpellsRatio v n d) : SpellsRate v n d
  | sides {members : List (String × Json)} {v w : Json} {n d : Nat}
    (hnodup : (members.map Prod.fst).Nodup) (hv : find "numerator" members = some v)
    (hw : find "denominator" members = some w) (hn : SpellsAmount v n)
    (hd : SpellsAmount w d) : SpellsRate (.obj members) n d

/-- An amount by itself spells a price for one token. -/
theorem SpellsAmount.ratio {v : Json} {n : Nat} (h : SpellsAmount v n) : SpellsRatio v n 1 := by
  cases h with
  | int h => exact .int h
  | str h => exact .str (.inl ⟨h, rfl⟩)

end Json

/-! ## what is read -/

section readers

variable {sc : Scale} {v : Json} {n d : Nat} {path : String}

/-- A numeral is read as its number, if that fits. -/
theorem Quantity.ofChars?_iff_of_numeral {cs : List Char} (h : Text.Numeral cs n)
    {q : Quantity sc} : ofChars? cs = some q ↔ q.val = n := by
  rw [ofChars?_eq_some_iff]
  exact ⟨fun hq => hq.unique h, fun hq => hq ▸ h⟩

/-- What spells an amount is decoded as it, if it fits. -/
theorem Quantity.decode_ok_iff (h : v.SpellsAmount n) {q : Quantity sc} :
    Quantity.decode v = .ok q ↔ q.val = n := by
  cases h with
  | int h =>
      have hneg : ¬ (n : Int) < 0 := by omega
      rw [decode, if_neg hneg, Int.toNat_natCast, ← ofNat?_eq_some_iff]
      cases (ofNat? n : Option (Quantity sc)) <;> simp [orUnexpected]
  | str h =>
      rw [decode, ← ofChars?_iff_of_numeral h, ofText?]
      cases (ofChars? _ : Option (Quantity sc)) <;> simp

namespace Setting

theorem demand_ok_iff {α : Type} {s : Setting} {read : Setting → Except SetupError (Option α)}
    {a : α} : s.demand read = .ok a ↔ read s = .ok (some a) := by
  unfold demand refuse
  cases read s with
  | error e => simp
  | ok r => cases r <;> simp

/-- **An amount is read just as it is spelt**, if amounts go that far. -/
theorem quantity?_ok_iff (h : v.SpellsAmount n) {r : Option (Quantity sc)} :
    (Setting.mk path (some v)).quantity? = .ok r ↔ ∃ q, r = some q ∧ q.val = n := by
  cases h with
  | int h =>
      simp only [quantity?, Int.natCast_nonneg, if_true, Int.toNat_natCast,
        ← Quantity.ofNat?_eq_some_iff]
      cases (Quantity.ofNat? n : Option (Quantity sc)) <;> simp [refuse, eq_comm]
  | @str t _ h =>
      simp only [quantity?, Quantity.ofText?, ← Quantity.ofChars?_iff_of_numeral h]
      cases (Quantity.ofChars? t.toList : Option (Quantity sc)) <;> simp [refuse, eq_comm]

/-- **A price is read just as it is spelt**, if neither side is zero and amounts go that far. -/
theorem price?_ok_iff (h : v.SpellsRatio n d) {r : Option Price} :
    (Setting.mk path (some v)).price? = .ok r ↔
      ∃ p, r = some p ∧ (p.units.val = n ∧ p.tokens.val = d) ∧ p.isValid = true := by
  cases h with
  | int h =>
      have hread (p : Price) : (Quantity.ofNat? n).bind Price.perToken? = some p ↔
          (p.units.val = n ∧ p.tokens.val = 1) ∧ p.isValid = true := by
        simp only [Option.bind_eq_some_iff, Quantity.ofNat?_eq_some_iff,
          Price.perToken?_eq_some_iff]
        constructor
        · rintro ⟨_, hu, ⟨rfl, hone⟩, hvalid⟩
          exact ⟨⟨hu, hone⟩, hvalid⟩
        · rintro ⟨⟨hu, hone⟩, hvalid⟩
          exact ⟨p.units, hu, ⟨rfl, hone⟩, hvalid⟩
      simp only [price?, Int.natCast_nonneg, if_true, Int.toNat_natCast, ← hread]
      cases (Quantity.ofNat? n).bind Price.perToken? <;> simp [refuse, eq_comm]
  | @str t _ _ h =>
      have hread (p : Price) : Price.ofText? t = some p ↔
          (p.units.val = n ∧ p.tokens.val = d) ∧ p.isValid = true := by
        rw [Price.ofText?_eq_some_iff]
        refine and_congr_left fun _ => ⟨fun hp => hp.unique h, ?_⟩
        rintro ⟨rfl, rfl⟩
        exact h
      simp only [price?, ← hread]
      cases Price.ofText? t <;> simp [refuse, eq_comm]

/-- The two sides of a rate are members of its object. -/
theorem spells_of_decode {members : List (String × Json)} {q : Quote}
    (h : Quote.decode (.obj members) = .ok q) :
    Json.Spells members "numerator" Quantity.decode q.numerator ∧
      Json.Spells members "denominator" Quantity.decode q.denominator := by
  simp only [Quote.decode, bind_eq_ok_iff] at h
  obtain ⟨fields, hfields, numerator, hnumerator, denominator, hdenominator, hq⟩ := h
  cases hq
  obtain rfl := eq_of_record_obj hfields
  exact ⟨.of_required hnumerator, .of_required hdenominator⟩

/-- They are read from any object that has them. -/
theorem decode_sides_ok_iff {members : List (String × Json)} {w : Json}
    (hnodup : (members.map Prod.fst).Nodup) (hv : find "numerator" members = some v)
    (hw : find "denominator" members = some w) (hn : v.SpellsAmount n) (hd : w.SpellsAmount d)
    {q : Quote} : Quote.decode (.obj members) = .ok q ↔
      q.numerator.val = n ∧ q.denominator.val = d := by
  rw [← Quantity.decode_ok_iff hn, ← Quantity.decode_ok_iff hd]
  constructor
  · intro h
    obtain ⟨⟨v', hv', hnumerator⟩, w', hw', hdenominator⟩ := spells_of_decode h
    cases hv.symm.trans hv'
    cases hw.symm.trans hw'
    exact ⟨hnumerator, hdenominator⟩
  · rintro ⟨hnumerator, hdenominator⟩
    have hspells : Spells members "numerator" Quantity.decode q.numerator := ⟨v, hv, hnumerator⟩
    have hspells' : Spells members "denominator" Quantity.decode q.denominator :=
      ⟨w, hw, hdenominator⟩
    have hrecord : record [known "numerator" (Quantity.decode (s := .units)),
        known "denominator" (Quantity.decode (s := .funds))] (.obj members) = .ok members :=
      record_of_nodup hnodup (by simpa using ⟨hspells.probe, hspells'.probe⟩)
    rw [Quote.decode, hrecord, ok_bind, hspells.required, ok_bind, hspells'.required, ok_bind]
    rfl

/-- A whole number is a rate for one. -/
theorem wholeQuote_ok_iff (h : v.SpellsAmount n) {q : Quote} :
    (((Setting.mk path (some v)).demand quantity?).map fun n => (⟨n, .one⟩ : Quote)) = .ok q ↔
      q.numerator.val = n ∧ q.denominator.val = 1 := by
  simp only [map_eq_ok_iff, demand_ok_iff, quantity?_ok_iff h, Option.some.injEq]
  constructor
  · rintro ⟨a, ⟨q, rfl, hq⟩, rfl⟩
    exact ⟨hq, rfl⟩
  · rintro ⟨hn, hone⟩
    have hdenominator : q.denominator = .one := Quantity.ext hone
    exact ⟨q.numerator, ⟨_, rfl, hn⟩, by rw [← hdenominator]⟩

/-- A quote in two numerals is read as their numbers. -/
theorem quoteOfText_ok_iff {s : Setting} {t : String} {before after : List Char}
    (hn : Text.Numeral before n) (hd : Text.Numeral after d) {q : Quote} :
    s.quoteOfText t before after = .ok q ↔ q.numerator.val = n ∧ q.denominator.val = d := by
  rw [← Quantity.ofChars?_iff_of_numeral hn, ← Quantity.ofChars?_iff_of_numeral hd, quoteOfText]
  cases (Quantity.ofChars? before : Option Units) with
  | none => simp [refuse]
  | some numerator =>
      cases (Quantity.ofChars? after : Option Funds) with
      | none => simp [refuse]
      | some denominator =>
          cases q
          simp

/-- **The sides of a rate are read just as they are spelt**, if amounts go that far. -/
theorem anyQuote_ok_iff (h : v.SpellsRate n d) {q : Quote} :
    (Setting.mk path (some v)).anyQuote = .ok q ↔
      q.numerator.val = n ∧ q.denominator.val = d := by
  cases h with
  | @sides members _ _ _ _ hnodup hv hw hn hd =>
      rw [← decode_sides_ok_iff hnodup hv hw hn hd]
      simp only [anyQuote]
      cases Quote.decode (.obj members) <;> simp [refuse]
  | ratio h => cases h with
    | int h => exact wholeQuote_ok_iff (.int h)
    | str h =>
        simp only [anyQuote]
        obtain ⟨hn, rfl⟩ | ⟨before, after, heq, hn, hd⟩ := h
        · rw [Text.splitOnce_eq_none_iff.2 hn.slash_notMem]
          exact wholeQuote_ok_iff (.str hn)
        · rw [Text.splitOnce_eq_some_iff.2 ⟨heq, hn.slash_notMem⟩]
          exact quoteOfText_ok_iff hn hd

/-- A quote is accepted if it can be read and neither side is zero. -/
theorem quote_ok_iff_of_anyQuote {s : Setting} {q : Quote} : s.quote = .ok q ↔
    s.anyQuote = .ok q ∧ 0 < q.numerator.val ∧ 0 < q.denominator.val := by
  rw [quote, bind_eq_ok_iff]
  constructor
  · rintro ⟨q', hany, hq⟩
    split at hq
    · contradiction
    next hzero =>
    cases hq
    refine ⟨hany, ?_⟩
    simpa [Nat.pos_iff_ne_zero] using hzero
  · rintro ⟨hany, hn, hd⟩
    refine ⟨q, hany, if_neg ?_⟩
    simp only [Bool.or_eq_true, Quantity.isZero_iff]
    omega

/-- **A rate is read just as it is spelt**, if neither side is zero and amounts go that far. -/
theorem quote_ok_iff (h : v.SpellsRate n d) {q : Quote} :
    (Setting.mk path (some v)).quote = .ok q ↔
      (q.numerator.val = n ∧ q.denominator.val = d) ∧
        0 < q.numerator.val ∧ 0 < q.denominator.val := by
  rw [quote_ok_iff_of_anyQuote, anyQuote_ok_iff h]

end Setting

/-! ## nothing else is read -/

variable {ok : Binary64 → Prop}

/-- An integer of a document that is not negative spells an amount. -/
theorem exists_spellsAmount_int {k : Int} (hv : (Json.int k).IsDocument ok) (hk : 0 ≤ k) :
    ∃ m, (Json.int k).SpellsAmount m := by
  cases hv with
  | int least most =>
      obtain ⟨m, rfl⟩ := Int.eq_ofNat_of_zero_le hk
      exact ⟨m, .int (by omega)⟩

/-- What is decoded as an amount spells it. -/
theorem Quantity.spellsAmount_of_decode (hv : v.IsDocument ok) {q : Quantity sc}
    (h : Quantity.decode v = .ok q) : v.SpellsAmount q.val := by
  cases v with
  | int k =>
      have hk : 0 ≤ k := by
        by_contra hneg
        rw [decode, if_pos (Int.not_le.1 hneg)] at h
        contradiction
      obtain ⟨m, hm⟩ := exists_spellsAmount_int hv hk
      rwa [(decode_ok_iff hm).1 h]
  | str t =>
      rw [decode] at h
      split at h
      next q' hq =>
        cases h
        exact .str (ofText?_eq_some_iff.1 hq)
      · contradiction
  | _ => cases h

namespace Setting

/-- **What an amount is read from spells it.** -/
theorem spellsAmount_of_quantity? (hv : v.IsDocument ok) {q : Quantity sc}
    (h : (Setting.mk path (some v)).quantity? = .ok (some q)) : v.SpellsAmount q.val := by
  cases v with
  | int k =>
      have hk : 0 ≤ k := by
        by_contra hneg
        simp only [quantity?, if_neg hneg] at h
        cases h
      obtain ⟨m, hm⟩ := exists_spellsAmount_int hv hk
      obtain ⟨q', hq, hval⟩ := (quantity?_ok_iff hm).1 h
      cases hq
      rwa [hval]
  | str t =>
      simp only [quantity?] at h
      split at h
      next q' hq =>
        cases h
        exact .str (Quantity.ofText?_eq_some_iff.1 hq)
      · cases h
  | _ => cases h

/-- Only null is read as nothing. -/
theorem eq_null_of_quantity?
    (h : (Setting.mk path (some v)).quantity? = .ok (none : Option (Quantity sc))) :
    v = .null := by
  cases v with
  | null => rfl
  | int k => simp only [quantity?] at h; split at h <;> cases h
  | str t => simp only [quantity?] at h; split at h <;> cases h
  | _ => cases h

/-- **What a price is read from spells it.** -/
theorem spellsRatio_of_price? (hv : v.IsDocument ok) {p : Price}
    (h : (Setting.mk path (some v)).price? = .ok (some p)) :
    v.SpellsRatio p.units.val p.tokens.val := by
  cases v with
  | int k =>
      have hk : 0 ≤ k := by
        by_contra hneg
        simp only [price?, if_neg hneg] at h
        cases h
      obtain ⟨m, hm⟩ := exists_spellsAmount_int hv hk
      obtain ⟨p', hp, ⟨hunits, htokens⟩, -⟩ := (price?_ok_iff hm.ratio).1 h
      cases hp
      rw [hunits, htokens]
      exact hm.ratio
  | str t =>
      simp only [price?] at h
      split at h
      next p' hp =>
        cases h
        exact .str (Price.ofText?_eq_some_iff.1 hp).1
      · cases h
  | _ => cases h

theorem eq_null_of_price? (h : (Setting.mk path (some v)).price? = .ok none) : v = .null := by
  cases v with
  | null => rfl
  | int k => simp only [price?] at h; split at h <;> cases h
  | str t => simp only [price?] at h; split at h <;> cases h
  | _ => cases h

/-- **What a rate is read from spells it.** -/
theorem spellsRate_of_anyQuote (hv : v.IsDocument ok) {q : Quote}
    (h : (Setting.mk path (some v)).anyQuote = .ok q) :
    v.SpellsRate q.numerator.val q.denominator.val := by
  have hwhole {v : Json} (hv : v.IsDocument ok) (h : (((Setting.mk path (some v)).demand
      quantity?).map fun n => (⟨n, .one⟩ : Quote)) = .ok q) :
      v.SpellsRate q.numerator.val q.denominator.val := by
    simp only [map_eq_ok_iff, demand_ok_iff] at h
    obtain ⟨n, hn, rfl⟩ := h
    exact .ratio (spellsAmount_of_quantity? hv hn).ratio
  cases v with
  | str t =>
      simp only [anyQuote] at h
      split at h
      next before after hsplit =>
        obtain ⟨heq, -⟩ := Text.splitOnce_eq_some_iff.1 hsplit
        simp only [quoteOfText] at h
        split at h
        · cases h
        next n hn =>
        split at h
        · cases h
        next d hd =>
        cases h
        exact .ratio (.str (.inr ⟨before, after, heq, Quantity.ofChars?_eq_some_iff.1 hn,
          Quantity.ofChars?_eq_some_iff.1 hd⟩))
      · exact hwhole (.str t) h
  | obj members =>
      cases hdecode : Quote.decode (.obj members) with
      | error e => simp only [anyQuote, hdecode] at h; cases h
      | ok q' =>
          simp only [anyQuote, hdecode] at h
          cases h
          cases hv with
          | obj hmembers hnodup =>
            obtain ⟨⟨v, hv, hn⟩, w, hw, hd⟩ := spells_of_decode hdecode
            exact .sides hnodup hv hw
              (Quantity.spellsAmount_of_decode (hmembers _ (mem_of_find hv)) hn)
              (Quantity.spellsAmount_of_decode (hmembers _ (mem_of_find hw)) hd)
  | _ => exact hwhole hv h

end Setting

end readers

/-! ## kinds of quantities -/

/-- What a quantity of a configuration is. -/
inductive QuantityKind where
  | amount
  | price
  | rate
  deriving DecidableEq

namespace QuantityKind

/-- A document spells a quantity: an amount, or the two sides of a ratio. -/
def Spells : QuantityKind → Json → Nat → Nat → Prop
  | amount, v, n, d => v.SpellsAmount n ∧ d = 1
  | price, v, n, d => v.SpellsRatio n d
  | rate, v, n, d => v.SpellsRate n d

/-- Two documents spell the same quantity. -/
def Same (kind : QuantityKind) (v w : Json) : Prop :=
  ∃ n d, kind.Spells v n d ∧ kind.Spells w n d

variable {v w : Json} {n : Nat}

/-- Two spellings of an amount are read the same. -/
theorem Same.quantity? {sc : Scale} (h : amount.Same v w) (path : String) :
    SameReading (Setting.mk path (some v)).quantity?
      ((Setting.mk path (some w)).quantity? : Except _ (Option (Quantity sc))) := by
  obtain ⟨n, d, ⟨hv, -⟩, hw, -⟩ := h
  exact fun r => by rw [Setting.quantity?_ok_iff hv, Setting.quantity?_ok_iff hw]

theorem Same.price? (h : price.Same v w) (path : String) :
    SameReading (Setting.mk path (some v)).price? (Setting.mk path (some w)).price? := by
  obtain ⟨n, d, hv, hw⟩ := h
  exact fun r => by rw [Setting.price?_ok_iff hv, Setting.price?_ok_iff hw]

theorem Same.quote (h : rate.Same v w) (path : String) :
    SameReading (Setting.mk path (some v)).quote (Setting.mk path (some w)).quote := by
  obtain ⟨n, d, hv, hw⟩ := h
  exact fun r => by rw [Setting.quote_ok_iff hv, Setting.quote_ok_iff hw]

/-- A number spells every kind of quantity. -/
theorem spells_of_amount (h : v.SpellsAmount n) : ∀ kind : QuantityKind, kind.Spells v n 1
  | amount => ⟨h, rfl⟩
  | price => h.ratio
  | rate => .ratio h.ratio

/-- Separators and blanks make no difference. -/
theorem Spells.loosened {kind : QuantityKind} {s s' : String} {d : Nat}
    (h : kind.Spells (.str s) n d)
    (hloose : Relation.ReflTransGen Text.Loosened s.toList s'.toList) :
    kind.Spells (.str s') n d := by
  cases kind with
  | amount => cases h with
    | intro h hd => cases h with
      | str h => exact ⟨.str (Text.Numeral.loosenings h hloose), hd⟩
  | price => cases h with
    | str h => exact .str (Text.Ratio.loosenings h hloose)
  | rate => cases h with
    | ratio h => cases h with
      | str h => exact .ratio (.str (Text.Ratio.loosenings h hloose))

/-- An integer is spelt by what is written for it. -/
theorem same_int (kind : QuantityKind) (h : n < Nat.pow 2 64) :
    kind.Same (.int n) (.str (toString n)) :=
  ⟨n, 1, spells_of_amount (.int h) kind,
    spells_of_amount (.str (Text.numeral_toString n)) kind⟩

/-- A whole number is one over one. -/
theorem spellsRatio_over_one {s : String} (h : Text.Numeral s.toList n) :
    Json.SpellsRatio (.str (s ++ "/1")) n 1 := by
  refine .str (.inr ⟨s.toList, ['1'], ?_, h, Text.numeral_toString 1⟩)
  rw [String.toList_append]
  rfl

end QuantityKind

end TokenSale
