import TokenSale.Instant.Basic
import TokenSale.Instant.Calendar
import TokenSale.Text.Blank

/-!
# TokenSale.Instant.Text

The written forms of time.

* `text` — RFC 3339 in UTC, with none, three, six or nine fraction digits,
  the fewest that are exact;
* `messageText` — the same as it stands in messages;
* `ofRfc3339?` — the strict reading, with any offset;
* `ofText?` — the lenient reading of wire forms: blanks between the parts,
  short numbers, signed years and the zone name are accepted as well.
-/

namespace TokenSale.Instant

open Calendar

/-! ## writing -/

/-- `n` in decimal with at least `width` digits. -/
def padded (width n : Nat) : List Char :=
  let ds := Nat.toDigits 10 n
  List.replicate (width - ds.length) '0' ++ ds

/-- A year: four digits, or a sign and more of them. -/
def yearText (y : Int) : List Char :=
  if 0 ≤ y ∧ y ≤ 9999 then padded 4 y.toNat
  else (if y < 0 then '-' else '+') :: padded 4 y.natAbs

/-- The fraction of a second, in as few groups of three digits as are exact. -/
def fractionText (nano : Nat) : List Char :=
  if nano = 0 then []
  else if nano % 1000000 = 0 then '.' :: padded 3 (nano / 1000000)
  else if nano % 1000 = 0 then '.' :: padded 6 (nano / 1000)
  else '.' :: padded 9 nano

/-- The date in UTC. -/
def date (t : Instant) : Date := Date.ofDays (t.second / 86400)

/-- The date, as year, month and day. -/
def dateText (t : Instant) : List Char :=
  yearText t.date.year ++ ['-'] ++ padded 2 t.date.month ++ ['-'] ++ padded 2 t.date.day

/-- The time of day; within a leap second the second is the sixtieth. -/
def timeText (t : Instant) : List Char :=
  let s := t.secondOfDay.toNat
  padded 2 (s / 3600) ++ [':'] ++ padded 2 (s / 60 % 60) ++ [':'] ++
    padded 2 (s % 60 + t.nano / nanosPerSecond) ++ fractionText (t.nano % nanosPerSecond)

/-- The wire form. -/
def text (t : Instant) : String :=
  String.ofList (dateText t ++ ['T'] ++ timeText t ++ ['Z'])

/-- The form in messages. -/
def messageText (t : Instant) : String :=
  String.ofList (dateText t ++ [' '] ++ timeText t ++ " UTC".toList)

/-! ## parts of the readers -/

/-- A number of at least one and at most `most` digits at the front. -/
def takeNumber (least most : Nat) (cs : List Char) : Option (Nat × List Char) :=
  let ds := (cs.take most).takeWhile Char.isDigit
  if ds.length < least ∨ ds.isEmpty then none
  else some (Nat.ofDigitChars 10 ds 0, cs.drop ds.length)

/-- The given character at the front. -/
def takeChar (c : Char) : List Char → Option (List Char)
  | [] => none
  | d :: rest => if d = c then some rest else none

/-- A fraction of a second after its point: nine digits count, further ones
are dropped. -/
def takeFraction (cs : List Char) : Option (Nat × List Char) := do
  let (n, rest) ← takeNumber 1 9 cs
  let used := cs.length - rest.length
  pure (n * Nat.pow 10 (9 - used), rest.dropWhile Char.isDigit)

/-- An optional fraction with its point. -/
def takeOptionalFraction (cs : List Char) : Option (Nat × List Char) :=
  match cs with
  | '.' :: rest => takeFraction rest
  | _ => some (0, cs)

/-- The separator of date and time. -/
def takeSeparator : List Char → Option (List Char)
  | [] => none
  | c :: rest => if c = 'T' ∨ c = 't' ∨ c = ' ' then some rest else none

/-- An offset from UTC in minutes; `skip` passes over what stands between
hours and minutes. -/
def takeOffset (skip : List Char → Option (List Char)) (cs : List Char) :
    Option (Int × List Char) :=
  match cs with
  | [] => none
  | c :: rest =>
    if c = 'Z' ∨ c = 'z' then some (0, rest)
    else if c = '+' ∨ c = '-' ∨ c = '−' then do
      let (h, rest) ← takeNumber 2 2 rest
      let rest ← skip rest
      let (m, rest) ← takeNumber 2 2 rest
      if 59 < m then none
      else
        let minutes : Int := h * 60 + m
        pure (if c = '+' then minutes else -minutes, rest)
    else none

/-- The instant of a date and a time of day at an offset; nothing if one of
them does not exist. -/
def ofParts? (d : Date) (hour minute second nano : Nat) (offset : Int) : Option Instant :=
  if h : d.exists ∧ hour ≤ 23 ∧ minute ≤ 59 ∧ second ≤ 60 ∧ nano < nanosPerSecond ∧
      -1439 ≤ offset ∧ offset ≤ 1439 ∧ -262143 ≤ d.year ∧ d.year ≤ 262142 then
    let base : Int := d.toDays * 86400 + hour * 3600 + minute * 60 - offset * 60
    if second = 60 then
      some ⟨base + 59, nano + nanosPerSecond, by simp only [nanosPerSecond] at *; omega⟩
    else some ⟨base + second, nano, by simp only [nanosPerSecond] at *; omega⟩
  else none

/-! ## reading -/

/-- The strict reading of RFC 3339. -/
def ofRfc3339Chars? (cs : List Char) : Option Instant := do
  let (year, cs) ← takeNumber 4 4 cs
  let cs ← takeChar '-' cs
  let (month, cs) ← takeNumber 2 2 cs
  let cs ← takeChar '-' cs
  let (day, cs) ← takeNumber 2 2 cs
  let cs ← takeSeparator cs
  let (hour, cs) ← takeNumber 2 2 cs
  let cs ← takeChar ':' cs
  let (minute, cs) ← takeNumber 2 2 cs
  let cs ← takeChar ':' cs
  let (second, cs) ← takeNumber 2 2 cs
  let (nano, cs) ← takeOptionalFraction cs
  let (offset, cs) ← takeOffset (takeChar ':') cs
  if cs.isEmpty then ofParts? ⟨year, month, day⟩ hour minute second nano offset else none

/-- `ofRfc3339Chars?` on strings. -/
def ofRfc3339? (s : String) : Option Instant := ofRfc3339Chars? s.toList

/-- A year of up to four digits, or of any length behind a sign. -/
def takeYear (cs : List Char) : Option (Int × List Char) :=
  match cs with
  | '-' :: rest => (takeNumber 1 rest.length rest).map fun p => (-(p.1 : Int), p.2)
  | '+' :: rest => (takeNumber 1 rest.length rest).map fun p => ((p.1 : Int), p.2)
  | cs => (takeNumber 1 4 cs).map fun p => ((p.1 : Int), p.2)

/-- The given character behind blanks. -/
def takeLooseChar (c : Char) (cs : List Char) : Option (List Char) :=
  takeChar c (Text.trimStart cs)

/-- A number of one or two digits behind blanks. -/
def takeLooseNumber (cs : List Char) : Option (Nat × List Char) :=
  takeNumber 1 2 (Text.trimStart cs)

/-- The zone name or an offset. -/
def takeZone (cs : List Char) : Option (Int × List Char) :=
  match cs with
  | a :: b :: c :: rest =>
    if a.toUpper = 'U' ∧ b.toUpper = 'T' ∧ c.toUpper = 'C' then some (0, rest)
    else takeOffset skip cs
  | _ => takeOffset skip cs
where
  skip (cs : List Char) : Option (List Char) :=
    some (cs.dropWhile fun c => c == ':' || Text.isBlank c)

/-- The lenient reading of wire forms. -/
def ofTextChars? (cs : List Char) : Option Instant := do
  let (year, cs) ← takeYear (Text.trimStart cs)
  let cs ← takeLooseChar '-' cs
  let (month, cs) ← takeLooseNumber cs
  let cs ← takeLooseChar '-' cs
  let (day, cs) ← takeLooseNumber cs
  let cs ← takeSeparator cs
  let (hour, cs) ← takeLooseNumber cs
  let cs ← takeLooseChar ':' cs
  let (minute, cs) ← takeLooseNumber cs
  let cs ← takeLooseChar ':' cs
  let (second, cs) ← takeLooseNumber cs
  let (nano, cs) ← takeOptionalFraction cs
  let (offset, cs) ← takeZone (Text.trimStart cs)
  if (Text.trimStart cs).isEmpty then ofParts? ⟨year, month, day⟩ hour minute second nano offset
  else none

/-- `ofTextChars?` on strings. -/
def ofText? (s : String) : Option Instant := ofTextChars? s.toList

end TokenSale.Instant
