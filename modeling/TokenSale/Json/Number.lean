import TokenSale.Json.Basic

/-!
# TokenSale.Json.Number

The reading of numbers.  An integer that fits in 64 bits, with or without a
sign, stays an integer; every other number becomes a floating-point number.
Its digits are gathered into a significand of at most 64 bits, which is then
scaled by one power of ten.
-/

namespace TokenSale.Json

/-- Significands stay below this bound. -/
abbrev significandLimit : Nat := Nat.pow 2 64

/-- A significand and the power of ten that it counts. -/
structure Scaled where
  significand : Nat
  exponent : Int
  deriving DecidableEq

namespace Scaled

/-- Takes in the digits before the point; those that no longer fit raise the exponent. -/
def takeWhole (s : Scaled) (full : Bool) : List Nat → Scaled
  | [] => s
  | d :: ds =>
    if full ∨ significandLimit ≤ 10 * s.significand + d then
      takeWhole ⟨s.significand, s.exponent + 1⟩ true ds
    else takeWhole ⟨10 * s.significand + d, s.exponent⟩ false ds

/-- Takes in the digits after the point; those that no longer fit are dropped. -/
def takeFraction (s : Scaled) : List Nat → Scaled
  | [] => s
  | d :: ds =>
    if significandLimit ≤ 10 * s.significand + d then s
    else takeFraction ⟨10 * s.significand + d, s.exponent - 1⟩ ds

/-- The value as a floating-point number; nothing if it is out of range.  An
exponent beyond what one power of ten covers is worked off in steps. -/
def toFloat? (negative : Bool) (s : Scaled) : Option Binary64 :=
  (Binary64.ofNat? s.significand).bind fun x =>
    scale 8 ⟨negative, x.mantissa, x.exponent⟩ s.exponent
where
  scale : Nat → Binary64 → Int → Option Binary64
    | 0, x, _ => some x
    | fuel + 1, x, e =>
      if e.natAbs ≤ 308 then
        (Binary64.ofNat? (Nat.pow 10 e.natAbs)).bind fun p => if 0 ≤ e then x.mul? p else x.div? p
      else if x.isZero then some x
      else if 0 ≤ e then none
      else
        (Binary64.ofNat? (Nat.pow 10 308)).bind fun p =>
          (x.div? p).bind fun y => scale fuel y (e + 308)

end Scaled

/-- The digits at the front. -/
def takeDigits (cs : List Char) : List Nat × List Char :=
  ((cs.takeWhile Char.isDigit).map fun c => c.toNat - 48, cs.dropWhile Char.isDigit)

/-- The number that digits spell. -/
def digitsValue (ds : List Nat) : Nat := ds.foldl (fun n d => 10 * n + d) 0

/-- An optional exponent: its sign and digits. -/
def takeExponent : List Char → Option (Option (Bool × List Nat) × List Char)
  | 'e' :: rest => (after rest).map fun p => (some p.1, p.2)
  | 'E' :: rest => (after rest).map fun p => (some p.1, p.2)
  | cs => some (none, cs)
where
  after (cs : List Char) : Option ((Bool × List Nat) × List Char) :=
    let (negative, cs) := match cs with
      | '+' :: rest => (false, rest)
      | '-' :: rest => (true, rest)
      | cs => (false, cs)
    let (ds, rest) := takeDigits cs
    if ds.isEmpty then none else some ((negative, ds), rest)

/-- An optional fraction: its digits behind the point. -/
def takeFraction : List Char → Option (Option (List Nat) × List Char)
  | '.' :: rest =>
    let (ds, rest) := takeDigits rest
    if ds.isEmpty then none else some (some ds, rest)
  | cs => some (none, cs)

/-- A number without fraction and exponent. -/
def ofWhole? (negative : Bool) (ds : List Nat) : Option Json :=
  let n := digitsValue ds
  if !negative && n < Nat.pow 2 64 then some (int n)
  else if negative && 0 < n && n ≤ Nat.pow 2 63 then some (int (-n))
  else ((Scaled.mk 0 0).takeWhole false ds |>.toFloat? negative).map float

/-- A number with fraction or exponent.  An exponent of more than 31 bits is
out of range unless the number is zero or tiny. -/
def ofParts? (negative : Bool) (whole fraction : List Nat) (exponent : Option (Bool × List Nat)) :
    Option Json :=
  let s := ((Scaled.mk 0 0).takeWhole false whole).takeFraction fraction
  match exponent with
  | none => (s.toFloat? negative).map float
  | some (down, ds) =>
    let e := digitsValue ds
    if Nat.pow 2 31 ≤ e then
      if s.significand = 0 ∨ down then some (float (.zero negative)) else none
    else
      let shift : Int := if down then -e else e
      ((Scaled.mk s.significand (s.exponent + shift)).toFloat? negative).map float

/-- A number at the front: no leading zeros, digits on both sides of a point. -/
def readNumber (cs : List Char) : Option (Json × List Char) := do
  let (negative, cs) := match cs with
    | '-' :: rest => (true, rest)
    | cs => (false, cs)
  let (whole, cs) := takeDigits cs
  if whole.isEmpty ∨ (whole.head? = some 0 ∧ 1 < whole.length) then none
  else
    let (fraction, cs) ← takeFraction cs
    let (exponent, cs) ← takeExponent cs
    let v ← match fraction, exponent with
      | none, none => ofWhole? negative whole
      | fraction, exponent => ofParts? negative whole (fraction.getD []) exponent
    pure (v, cs)

end TokenSale.Json
