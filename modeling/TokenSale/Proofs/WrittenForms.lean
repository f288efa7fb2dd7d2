import Mathlib.Algebra.Ring.Nat
import Mathlib.Data.List.TakeWhile
import TokenSale.Proofs.Calendar
import TokenSale.Proofs.JsonRecord
import TokenSale.Proofs.QuantityText
import TokenSale.Wire.Values

/-!
# TokenSale.Proofs.WrittenForms

The written forms of amounts, identifiers and times read back as what was
written.

* `Uuid.ofText?_text`, `Instant.ofText?_text` — on texts;
* `Quantity.decode_encode`, `Uuid.decode_encode`, … — the same on documents;
* `Quantity.readAs`, `Uuid.readAs`, … — and within documents of any order;
* `Instant.IsReading` — the times for which it holds: those of a clock that
  tells leap seconds at the end of a minute, in years of up to six digits;
* `Instant.asRead` — what the other times in these years are read as.
-/

namespace TokenSale

open Json Directory

/-! ## amounts -/

namespace Quantity

variable {s : Scale}

@[simp] theorem decode_encode (a : Quantity s) : decode a.encode = .ok a := by
  rw [encode, decode, ofText?_toString]

end Quantity

/-! ## identifiers -/

namespace Text

theorem trimStart_cons {c : Char} {cs : List Char} (h : isBlank c = false) :
    trimStart (c :: cs) = c :: cs := by simp [trimStart, h]

/-- A hexadecimal digit is read back. -/
theorem hexValue?_digitChar {n : Nat} (h : n < 16) : hexValue? (Nat.digitChar n) = some n := by
  have hall : ∀ n < 16, hexValue? (Nat.digitChar n) = some n := by decide
  exact hall n h

/-- The digits of bytes read back as the number that the bytes are. -/
theorem foldlM_hex (bs : List UInt8) (m : Nat) :
    (Digest.hex bs).foldlM (fun n c => (hexValue? c).map (16 * n + ·)) m =
      some (bs.foldl (fun n b => 256 * n + b.toNat) m) := by
  induction bs generalizing m with
  | nil => rfl
  | cons b bs ih =>
      have hb := b.toNat_lt
      have hhigh := hexValue?_digitChar (n := b.toNat / 16) (by omega)
      have hlow := hexValue?_digitChar (n := b.toNat % 16) (by omega)
      have hvalue : 16 * (16 * m + b.toNat / 16) + b.toNat % 16 = 256 * m + b.toNat := by omega
      simp only [Digest.hex, List.flatMap_cons, Digest.hexByte, List.cons_append, List.nil_append,
        List.foldlM_cons, hhigh, hlow, Option.map_some, Option.bind_eq_bind, Option.bind_some,
        hvalue, List.foldl_cons]
      exact ih _

/-- Bytes in hexadecimal are read as the number that they write. -/
theorem hexNumber?_hex (bs : List UInt8) :
    hexNumber? (Digest.hex bs) = some (bs.foldl (fun n b => 256 * n + b.toNat) 0) :=
  foldlM_hex bs 0

end Text

namespace Digest

@[simp] theorem length_hex (bs : List UInt8) : (hex bs).length = 2 * bs.length := by
  induction bs with
  | nil => rfl
  | cons b bs ih =>
      rw [hex, List.flatMap_cons, List.length_append, ← hex, ih]
      simp only [hexByte, List.length_cons, List.length_nil]
      omega

/-- The bytes of a number make up the number again, as far as they reach. -/
theorem foldl_bigEndian (width n m : Nat) :
    (bigEndian width n).foldl (fun n b => 256 * n + b.toNat) m =
      256 ^ width * m + n % 256 ^ width := by
  induction width generalizing m with
  | zero => simp [bigEndian, Nat.mod_one]
  | succ width ih =>
      have hcons : bigEndian (width + 1) n =
          UInt8.ofNat (n / 256 ^ width) :: bigEndian width n := by
        simp [bigEndian, List.range_succ]
      have hbyte : (UInt8.ofNat (n / 256 ^ width)).toNat = n / 256 ^ width % 256 :=
        UInt8.toNat_ofNat'
      have hmod : n % 256 ^ (width + 1) = n % 256 ^ width + 256 ^ width * (n / 256 ^ width % 256) :=
        Nat.mod_pow_succ
      rw [hcons, List.foldl_cons, ih, hbyte, hmod, Nat.mul_add, ← Nat.mul_assoc, Nat.pow_succ,
        Nat.add_assoc, Nat.add_comm (256 ^ width * _)]

/-- Different bytes are written differently. -/
theorem hexByte_injective {b c : UInt8} (h : hexByte b = hexByte c) : b = c := by
  have hb := b.toNat_lt
  have hc := c.toNat_lt
  simp only [hexByte, List.cons.injEq, and_true] at h
  have hhigh := congrArg Text.hexValue? h.1
  have hlow := congrArg Text.hexValue? h.2
  rw [Text.hexValue?_digitChar (by omega), Text.hexValue?_digitChar (by omega)] at hhigh hlow
  refine UInt8.toNat_inj.1 ?_
  simp only [Option.some.injEq] at hhigh hlow
  omega

theorem hex_injective {bs cs : List UInt8} (h : hex bs = hex cs) : bs = cs := by
  induction bs generalizing cs with
  | nil => cases cs with
    | nil => rfl
    | cons c cs => simp [hex, hexByte] at h
  | cons b bs ih => cases cs with
    | nil => simp [hex, hexByte] at h
    | cons c cs =>
      have hparts := List.append_inj (show hexByte b ++ hex bs = hexByte c ++ hex cs from h) rfl
      rw [hexByte_injective hparts.1, ih hparts.2]

end Digest

namespace Uuid

/-- Hyphens between the groups are passed over. -/
theorem ofHyphenated?_groups {a b c d e : List Char} (ha : a.length = 8) (hb : b.length = 4)
    (hc : c.length = 4) (hd : d.length = 4) (he : e.length = 12) :
    ofHyphenated? (a ++ ['-'] ++ b ++ ['-'] ++ c ++ ['-'] ++ d ++ ['-'] ++ e) =
      ofDigits? (a ++ b ++ c ++ d ++ e) := by
  simp [ofHyphenated?, List.drop_append, List.drop_of_length_le, ha, hb, hc, hd, he]

/-- The bytes of an identity write its value. -/
theorem foldl_bytes (u : Uuid) : u.bytes.foldl (fun n b => 256 * n + b.toNat) 0 = u.value := by
  rw [bytes, Digest.foldl_bigEndian, Nat.mul_zero, Nat.zero_add]
  exact Nat.mod_eq_of_lt u.value_lt

/-- **A written identity is read back.** -/
theorem ofText?_text (u : Uuid) : ofText? u.text = some u := by
  have hlength : (Digest.hex u.bytes).length = 32 := by simp [bytes]
  have hdigits : (Digest.hex u.bytes).take 8 ++ ((Digest.hex u.bytes).drop 8).take 4 ++
      ((Digest.hex u.bytes).drop 12).take 4 ++ ((Digest.hex u.bytes).drop 16).take 4 ++
      (Digest.hex u.bytes).drop 20 = Digest.hex u.bytes := by
    have hcut : ∀ {ds : List Char} {n k m : Nat}, n + k = m →
        (ds.drop n).take k ++ ds.drop m = ds.drop n := by
      rintro ds n k _ rfl
      rw [← List.drop_drop, List.take_append_drop]
    simp only [List.append_assoc]
    rw [hcut (by decide), hcut (by decide), hcut (by decide), List.take_append_drop]
  have hchars : u.chars.length = 36 := by
    simp [chars, hlength]
  rw [ofText?, text, String.toList_ofList, ofChars?, if_neg (by omega), if_pos hchars, chars,
    ofHyphenated?_groups (by simp [hlength]) (by simp [hlength]) (by simp [hlength])
      (by simp [hlength]) (by simp [hlength]), hdigits, ofDigits?, if_pos hlength,
    Text.hexNumber?_hex, foldl_bytes]
  exact dif_pos u.value_lt

@[simp] theorem decode_encode (u : Uuid) : decode u.encode = .ok u := by
  simp [encode, decode, Json.decodeText, ofText?_text, Json.orUnexpected]

end Uuid

/-! ## times -/

namespace Instant

open Calendar

/-- The readings of a clock: a leap second comes at the end of a minute, and
the year stays within six digits. -/
structure IsReading (t : Instant) : Prop where
  year_least : -262143 ≤ t.date.year
  year_most : t.date.year ≤ 262142
  leap : t.isLeap = true → t.second % 60 = 59

/-- As many digits are taken as there are, within the bounds. -/
theorem takeNumber_append {least most : Nat} {ds rest : List Char}
    (hdigits : ∀ c ∈ ds, c.isDigit = true) (hne : ds ≠ []) (hleast : least ≤ ds.length)
    (hmost : ds.length ≤ most)
    (hend : ds.length = most ∨ ∀ c, rest.head? = some c → c.isDigit = false) :
    takeNumber least most (ds ++ rest) = some (Nat.ofDigitChars 10 ds 0, rest) := by
  have hrest : (rest.take (most - ds.length)).takeWhile Char.isDigit = [] := by
    obtain hlength | hhead := hend
    · simp [hlength]
    · cases hcs : rest.take (most - ds.length) with
      | nil => rfl
      | cons c cs =>
          have hc : rest.head? = some c := by
            cases rest with
            | nil => simp at hcs
            | cons d rest =>
                cases hn : most - ds.length with
                | zero => simp [hn] at hcs
                | succ n =>
                    rw [hn, List.take_succ_cons] at hcs
                    cases hcs; rfl
          simp [hhead c hc]
  have htake : ((ds ++ rest).take most).takeWhile Char.isDigit = ds := by
    rw [List.take_append, List.take_of_length_le hmost, List.takeWhile_append_of_pos hdigits, hrest,
      List.append_nil]
  simp only [takeNumber, htake]
  rw [if_neg (by simp [hne]; omega)]
  simp

/-! ### padded numbers -/

theorem isDigit_of_mem_padded {width n : Nat} {c : Char} (h : c ∈ padded width n) :
    c.isDigit = true := by
  obtain h | h := List.mem_append.1 h
  · rw [List.eq_of_mem_replicate h]; rfl
  · exact Text.isDigit_of_mem_toDigits h

theorem padded_ne_nil (width n : Nat) : padded width n ≠ [] := by
  simp [padded, Nat.toDigits_ne_nil]

/-- Leading zeros do not alter the number. -/
theorem ofDigitChars_padded (width n : Nat) : Nat.ofDigitChars 10 (padded width n) 0 = n := by
  simp [padded, Nat.ofDigitChars_append, Nat.ofDigitChars_replicate_zero,
    Nat.ofDigitChars_ten_toDigits]

/-- A number that fits is written with exactly that many digits. -/
theorem length_padded {width n : Nat} (hwidth : 0 < width) (h : n < 10 ^ width) :
    (padded width n).length = width := by
  have hlength := (Nat.length_toDigits_le_iff (by decide) hwidth).2 h
  simp only [padded, List.length_append, List.length_replicate]
  omega

/-- A padded number is read back. -/
theorem takeNumber_padded {least width n : Nat} (hwidth : 0 < width) (h : n < 10 ^ width)
    (hleast : least ≤ width) (rest : List Char) :
    takeNumber least width (padded width n ++ rest) = some (n, rest) := by
  have hlength := length_padded hwidth h
  rw [takeNumber_append (fun _ => isDigit_of_mem_padded) (padded_ne_nil width n) (by omega)
    (by omega) (.inl hlength), ofDigitChars_padded]

theorem trimStart_padded (width n : Nat) (rest : List Char) :
    Text.trimStart (padded width n ++ rest) = padded width n ++ rest := by
  cases hds : padded width n with
  | nil => exact absurd hds (padded_ne_nil width n)
  | cons c cs =>
      have hc : c ∈ padded width n := by rw [hds]; exact List.mem_cons_self ..
      exact Text.trimStart_cons (Text.isBlank_of_isDigit (isDigit_of_mem_padded hc))

theorem takeLooseNumber_padded {n : Nat} (h : n < 100) (rest : List Char) :
    takeLooseNumber (padded 2 n ++ rest) = some (n, rest) := by
  rw [takeLooseNumber, trimStart_padded, takeNumber_padded (by decide) h (by decide)]

theorem takeLooseChar_cons {c : Char} (h : Text.isBlank c = false) (rest : List Char) :
    takeLooseChar c (c :: rest) = some rest := by
  simp [takeLooseChar, Text.trimStart_cons h, takeChar]

/-! ### the parts of a time -/

theorem takeSeparator_cons (rest : List Char) : takeSeparator ('T' :: rest) = some rest := rfl

theorem takeYear_of_isDigit {c : Char} {cs : List Char} (h : c.isDigit = true) :
    takeYear (c :: cs) = (takeNumber 1 4 (c :: cs)).map fun p => ((p.1 : Int), p.2) := by
  unfold takeYear
  split
  next heq => cases heq; simp at h
  next heq => cases heq; simp at h
  next => rfl

/-- **A written year is read back, whatever its sign and length.** -/
theorem takeYear_yearText (y : Int) (rest : List Char) :
    takeYear (Text.trimStart (yearText y ++ '-' :: rest)) = some (y, '-' :: rest) := by
  unfold yearText
  split
  next h =>
    have hnumber : takeNumber 1 4 (padded 4 y.toNat ++ '-' :: rest) = some (y.toNat, '-' :: rest) :=
      takeNumber_padded (by decide) (by omega) (by decide) _
    rw [trimStart_padded]
    cases hds : padded 4 y.toNat with
    | nil => exact absurd hds (padded_ne_nil 4 y.toNat)
    | cons c cs =>
        have hc : c.isDigit = true :=
          isDigit_of_mem_padded (by rw [hds]; exact List.mem_cons_self ..)
        rw [hds, List.cons_append] at hnumber
        rw [List.cons_append, takeYear_of_isDigit hc, hnumber, Option.map_some,
          Int.toNat_of_nonneg h.1]
  next h =>
    have hnumber : takeNumber 1 (padded 4 y.natAbs ++ '-' :: rest).length
        (padded 4 y.natAbs ++ '-' :: rest) = some (y.natAbs, '-' :: rest) := by
      rw [takeNumber_append (fun _ => isDigit_of_mem_padded) (padded_ne_nil 4 y.natAbs)
        (List.length_pos_iff.2 (padded_ne_nil 4 y.natAbs)) (by simp)
        (.inr fun c hc => by cases hc; rfl), ofDigitChars_padded]
    split
    next hneg =>
      have hvalue : -(y.natAbs : Int) = y := by omega
      rw [List.cons_append, Text.trimStart_cons (by decide), takeYear, hnumber, Option.map_some,
        hvalue]
    next hpos =>
      have hvalue : (y.natAbs : Int) = y := by omega
      rw [List.cons_append, Text.trimStart_cons (by decide), takeYear, hnumber, Option.map_some,
        hvalue]

/-- A fraction is read in nanoseconds, however many digits it has. -/
theorem takeFraction_padded {width n : Nat} (hwidth : 0 < width) (hmost : width ≤ 9)
    (h : n < 10 ^ width) :
    takeFraction (padded width n ++ ['Z']) = some (n * 10 ^ (9 - width), ['Z']) := by
  have hlength := length_padded hwidth h
  have hnumber : takeNumber 1 9 (padded width n ++ ['Z']) = some (n, ['Z']) := by
    rw [takeNumber_append (fun _ => isDigit_of_mem_padded) (padded_ne_nil width n) (by omega)
      (by omega) (.inr fun c hc => by cases hc; rfl), ofDigitChars_padded]
  simp [takeFraction, hnumber, hlength, List.dropWhile]

/-- A written fraction is read back, also if there is none. -/
theorem takeOptionalFraction_fractionText {nano : Nat} (h : nano < nanosPerSecond) :
    takeOptionalFraction (fractionText nano ++ ['Z']) = some (nano, ['Z']) := by
  simp only [nanosPerSecond] at h
  unfold fractionText
  split
  next hzero => rw [hzero]; rfl
  split
  next hmilli =>
    have hvalue : nano / 1000000 * 10 ^ (9 - 3) = nano := by omega
    rw [List.cons_append, takeOptionalFraction,
      takeFraction_padded (by decide) (by decide) (by omega), hvalue]
  split
  next hmicro =>
    have hvalue : nano / 1000 * 10 ^ (9 - 6) = nano := by omega
    rw [List.cons_append, takeOptionalFraction,
      takeFraction_padded (by decide) (by decide) (by omega), hvalue]
  next =>
    rw [List.cons_append, takeOptionalFraction,
      takeFraction_padded (by decide) (by decide) (by omega), Nat.sub_self, Nat.pow_zero,
      Nat.mul_one]

/-- A written instant, field by field. -/
theorem toList_text (t : Instant) : t.text.toList =
    yearText t.date.year ++ '-' :: (padded 2 t.date.month ++ '-' :: (padded 2 t.date.day ++
      'T' :: (padded 2 (t.secondOfDay.toNat / 3600) ++
        ':' :: (padded 2 (t.secondOfDay.toNat / 60 % 60) ++
          ':' :: (padded 2 (t.secondOfDay.toNat % 60 + t.nano / nanosPerSecond) ++
            (fractionText (t.nano % nanosPerSecond) ++ ['Z'])))))) := by
  simp [text, dateText, timeText]

/-- The date of an instant is one of the calendar. -/
theorem date_exists (t : Instant) : t.date.exists = true := exists_ofDays _

theorem month_le (t : Instant) : t.date.month ≤ 12 := by
  have h := t.date_exists
  simp only [Date.exists, Bool.and_eq_true, decide_eq_true_eq] at h
  exact h.1.1.2

theorem day_le (t : Instant) : t.date.day ≤ 31 := by
  have h := t.date_exists
  simp only [Date.exists, Bool.and_eq_true, decide_eq_true_eq] at h
  have hlast : ∀ y m, daysInMonth y m ≤ 31 := by
    intro y m
    unfold daysInMonth
    split
    · split <;> decide
    · split <;> decide
  exact Nat.le_trans h.2 (hlast _ _)

theorem eq_of_second_eq {t u : Instant} (hsecond : t.second = u.second) (hnano : t.nano = u.nano) :
    t = u := by
  cases t; cases u; cases hsecond; cases hnano; rfl

/-- A leap second is kept as a second of nanoseconds too many. -/
theorem nano_of_isLeap {t : Instant} (h : t.isLeap = true) :
    t.nano / nanosPerSecond = 1 ∧ t.nano % nanosPerSecond + nanosPerSecond = t.nano := by
  have hnano := t.nano_lt
  simp only [isLeap, decide_eq_true_eq] at h
  simp only [nanosPerSecond] at *
  omega

theorem nano_of_not_isLeap {t : Instant} (h : ¬ t.isLeap = true) :
    t.nano / nanosPerSecond = 0 ∧ t.nano % nanosPerSecond = t.nano := by
  simp only [isLeap, decide_eq_true_eq, Nat.not_le] at h
  exact ⟨Nat.div_eq_of_lt h, Nat.mod_eq_of_lt h⟩

theorem secondOfDay_toNat (t : Instant) : (t.secondOfDay.toNat : Int) = t.second % 86400 :=
  Int.toNat_of_nonneg (Int.emod_nonneg _ (by decide))

/-- The sixtieth second is that of a leap. -/
theorem second_le (t : Instant) : t.secondOfDay.toNat % 60 + t.nano / nanosPerSecond ≤ 60 := by
  by_cases h : t.isLeap = true
  · rw [(nano_of_isLeap h).1]; omega
  · rw [(nano_of_not_isLeap h).1]; omega

/-- A reading is made of its date and its time of day. -/
theorem IsReading.ofParts?_eq {t : Instant} (h : t.IsReading) :
    ofParts? t.date (t.secondOfDay.toNat / 3600) (t.secondOfDay.toNat / 60 % 60)
      (t.secondOfDay.toNat % 60 + t.nano / nanosPerSecond) (t.nano % nanosPerSecond) 0 =
      some t := by
  have hdays : t.date.toDays = t.second / 86400 := toDays_ofDays _
  have hofday := t.secondOfDay_toNat
  have hnano : t.nano % nanosPerSecond < nanosPerSecond := Nat.mod_lt _ (by decide)
  rw [ofParts?, dif_pos ⟨t.date_exists, by omega, by omega, t.second_le, hnano, by decide,
    by decide, h.year_least, h.year_most⟩]
  by_cases hisLeap : t.isLeap = true
  · obtain ⟨hone, hfraction⟩ := nano_of_isLeap hisLeap
    have hlast := h.leap hisLeap
    rw [if_pos (by omega)]
    refine congrArg some (eq_of_second_eq ?_ hfraction)
    simp only [hdays]
    omega
  · obtain ⟨hzero, hfraction⟩ := nano_of_not_isLeap hisLeap
    rw [if_neg (by omega)]
    refine congrArg some (eq_of_second_eq ?_ hfraction)
    simp only [hzero, hdays]
    omega

theorem bind_of_eq_some {α β : Type} {o : Option α} {a : α} (h : o = some a) (f : α → Option β) :
    (o >>= f) = f a := by
  rw [h]; rfl

/-- What is written field by field is read field by field. -/
theorem ofTextChars?_fields {month day hour minute second nano : Nat} (year : Int)
    (hmonth : month < 100) (hday : day < 100) (hhour : hour < 100) (hminute : minute < 100)
    (hsecond : second < 100) (hnano : nano < nanosPerSecond) :
    ofTextChars? (yearText year ++ '-' :: (padded 2 month ++ '-' :: (padded 2 day ++
      'T' :: (padded 2 hour ++ ':' :: (padded 2 minute ++ ':' :: (padded 2 second ++
        (fractionText nano ++ ['Z']))))))) =
      ofParts? ⟨year, month, day⟩ hour minute second nano 0 := by
  have hhyphen := takeLooseChar_cons (show Text.isBlank '-' = false by decide)
  have hcolon := takeLooseChar_cons (show Text.isBlank ':' = false by decide)
  -- each reader takes its field off the front and hands the rest to the next one
  refine (bind_of_eq_some (takeYear_yearText year _) _).trans ?_
  refine (bind_of_eq_some (hhyphen _) _).trans ?_
  refine (bind_of_eq_some (takeLooseNumber_padded hmonth _) _).trans ?_
  refine (bind_of_eq_some (hhyphen _) _).trans ?_
  refine (bind_of_eq_some (takeLooseNumber_padded hday _) _).trans ?_
  refine (bind_of_eq_some (takeSeparator_cons _) _).trans ?_
  refine (bind_of_eq_some (takeLooseNumber_padded hhour _) _).trans ?_
  refine (bind_of_eq_some (hcolon _) _).trans ?_
  refine (bind_of_eq_some (takeLooseNumber_padded hminute _) _).trans ?_
  refine (bind_of_eq_some (hcolon _) _).trans ?_
  refine (bind_of_eq_some (takeLooseNumber_padded hsecond _) _).trans ?_
  exact bind_of_eq_some (takeOptionalFraction_fractionText hnano) _

/-- **A reading comes back from its wire form.** -/
theorem IsReading.ofText?_text {t : Instant} (h : t.IsReading) : ofText? t.text = some t := by
  have hmonth := t.month_le
  have hday := t.day_le
  have hofday := t.secondOfDay_toNat
  have hsecond := t.second_le
  rw [ofText?, toList_text, ofTextChars?_fields t.date.year (by omega) (by omega) (by omega)
    (by omega) (by omega) (Nat.mod_lt _ (by decide))]
  exact h.ofParts?_eq

/-- The year stays within six digits. -/
def InRange (t : Instant) : Prop := -262143 ≤ t.date.year ∧ t.date.year ≤ 262142

/-- The reading that the wire form of a time gives: a leap second within a
minute is taken for the second after it. -/
def asRead (t : Instant) : Instant :=
  if t.isLeap = true ∧ t.second % 60 ≠ 59 then t.advance 1 else t

/-- One second after a leap second it is the next second, at the same fraction. -/
theorem advance_one {t : Instant} (h : t.isLeap = true) :
    (t.advance 1).second = t.second + 1 ∧ (t.advance 1).nano = t.nano % nanosPerSecond := by
  simp [advance, h]

/-- Reading back does not move an instant to another day. -/
theorem date_asRead (t : Instant) : t.asRead.date = t.date := by
  unfold asRead
  split
  next h =>
    have hday : (t.second + 1) / 86400 = t.second / 86400 := by omega
    simp only [date, (advance_one h.1).1, hday]
  next => rfl

/-- It has the same wire form. -/
theorem text_asRead (t : Instant) : t.asRead.text = t.text := by
  have htime : t.asRead.timeText = t.timeText := by
    unfold asRead
    split
    next h =>
      obtain ⟨hsecond, hnano⟩ := advance_one h.1
      have hnext : ((t.second + 1) % 86400).toNat = (t.second % 86400).toNat + 1 := by omega
      have hhour : ((t.second % 86400).toNat + 1) / 3600 = (t.second % 86400).toNat / 3600 := by
        omega
      have hminute : ((t.second % 86400).toNat + 1) / 60 % 60 =
          (t.second % 86400).toNat / 60 % 60 := by omega
      have hsixty : ((t.second % 86400).toNat + 1) % 60 = (t.second % 86400).toNat % 60 + 1 := by
        omega
      have hmod := Nat.mod_lt t.nano (show 0 < nanosPerSecond by decide)
      obtain ⟨hone, -⟩ := nano_of_isLeap h.1
      simp only [timeText, secondOfDay, hsecond, hnano, hnext, hhour, hminute, hsixty, hone,
        Nat.mod_mod, Nat.div_eq_of_lt hmod, Nat.add_zero]
    next => rfl
  simp only [text, dateText, date_asRead, htime]

/-- It is a reading of a clock. -/
theorem InRange.isReading_asRead {t : Instant} (h : t.InRange) : t.asRead.IsReading where
  year_least := by rw [date_asRead]; exact h.1
  year_most := by rw [date_asRead]; exact h.2
  leap := by
    unfold asRead
    split
    next hwithin =>
      have hmod := Nat.mod_lt t.nano (show 0 < nanosPerSecond by decide)
      intro hleap
      simp only [isLeap, decide_eq_true_eq, (advance_one hwithin.1).2] at hleap
      omega
    next hends => exact fun hleap => Decidable.of_not_not fun hsecond => hends ⟨hleap, hsecond⟩

end Instant

/-! ## documents -/

theorem Quantity.readAs {s : Scale} (a : Quantity s) : ReadAs a.encode Quantity.decode a :=
  .of_str a.decode_encode

theorem Uuid.readAs (u : Uuid) : ReadAs u.encode Uuid.decode u := .of_str u.decode_encode

/-- An instant is read back if its text is. -/
theorem Instant.readAs {t : Instant} (h : ofText? t.text = some t) :
    ReadAs t.encode Instant.decode t :=
  .of_str (by simp [decode, decodeText, h, orUnexpected])

theorem InvestorId.readAs (i : InvestorId) : ReadAs i.encode InvestorId.decode i := .of_str rfl

theorem Currency.readAs (c : Currency) : ReadAs c.encode Currency.decode c :=
  .of_str (congrArg Except.ok c.ofText_code)

theorem Price.readAs (p : Price) : ReadAs p.encode Price.decode p := by
  refine .of_fields [.required "units" p.units.readAs,
    .last (.withDefault "tokens" p.tokens.readAs .one)] (by simp) fun ns hread => ?_
  simp only [List.forall_mem_cons, Field.required, Field.withDefault, Field.last] at hread
  simp only [ok_bind, hread]
  rfl

theorem Price.isPlain (p : Price) : IsPlain 1 p.encode :=
  isPlain_obj (by simp) (by simp [Quantity.encode, isPlain_str])

end TokenSale
