/-!
# TokenSale.Binary64.Basic

Finite binary floating-point numbers of 64 bits, kept as sign, mantissa and
exponent so that every operation is exact arithmetic followed by one rounding
to the nearest, ties to even.
-/

namespace TokenSale

/-- The number `± mantissa · 2 ^ exponent`.  Mantissas stay below `2 ^ 53`,
and below `2 ^ 52` only at the least exponent, `-1074`. -/
structure Binary64 where
  negative : Bool
  mantissa : Nat
  exponent : Int
  deriving DecidableEq

namespace Binary64

/-- Zero with a sign. -/
def zero (negative : Bool) : Binary64 := ⟨negative, 0, -1074⟩

/-- Whether the number is zero of either sign. -/
def isZero (x : Binary64) : Bool := x.mantissa == 0

/-- The magnitude as a ratio. -/
def ratio (x : Binary64) : Nat × Nat :=
  (x.mantissa * Nat.pow 2 x.exponent.toNat, Nat.pow 2 (-x.exponent).toNat)

/-- `num / den` in multiples of `2 ^ e`, rounded to the nearest, ties to even. -/
def roundAt (num den : Nat) (e : Int) : Nat :=
  let n := num * Nat.pow 2 (-e).toNat
  let d := den * Nat.pow 2 e.toNat
  let q := n / d
  let twice := 2 * (n % d)
  if twice < d then q
  else if d < twice then q + 1
  else if q % 2 = 0 then q else q + 1

/-- The number nearest to `num / den`; nothing if it is out of range. -/
def ofRatio? (negative : Bool) (num den : Nat) : Option Binary64 :=
  if num = 0 then some (zero negative)
  else
    let guess : Int := (num.log2 : Int) - den.log2 - 53
    let wide := num * Nat.pow 2 (-guess).toNat / (den * Nat.pow 2 guess.toNat)
    let e : Int := max (-1074) (if Nat.pow 2 53 ≤ wide then guess + 1 else guess)
    let m := roundAt num den e
    let (m, e) := if m = Nat.pow 2 53 then (Nat.pow 2 52, e + 1) else (m, e)
    if 971 < e then none else some ⟨negative, m, e⟩

/-- The number nearest to a natural number. -/
def ofNat? (n : Nat) : Option Binary64 := ofRatio? false n 1

/-- The product, rounded once; the sign is that of `x`. -/
def mul? (x y : Binary64) : Option Binary64 :=
  ofRatio? x.negative (x.ratio.1 * y.ratio.1) (x.ratio.2 * y.ratio.2)

/-- The quotient, rounded once; the sign is that of `x`. -/
def div? (x y : Binary64) : Option Binary64 :=
  ofRatio? x.negative (x.ratio.1 * y.ratio.2) (x.ratio.2 * y.ratio.1)

/-- The number nearest to `n · 10 ^ e`. -/
def ofDecimal? (negative : Bool) (n : Nat) (e : Int) : Option Binary64 :=
  ofRatio? negative (n * Nat.pow 10 e.toNat) (Nat.pow 10 (-e).toNat)

end Binary64

end TokenSale
