import TokenSale.Binary64.Basic

/-!
# TokenSale.Binary64.Shortest

The shortest decimal digits that read back as a given number, and their
nearest choice.  The reals that round to the number form an interval around
it; for one digit, two digits and so on the two neighbours of the number on
that decimal grid are tried, until one of them lies in the interval.
-/

namespace TokenSale.Binary64

/-- Whether `d · 10 ^ j` is at most `x · 2 ^ e`. -/
def decimalLe (d : Nat) (j : Int) (x : Nat) (e : Int) : Bool :=
  d * Nat.pow 10 j.toNat * Nat.pow 2 (-e).toNat ≤ x * Nat.pow 2 e.toNat * Nat.pow 10 (-j).toNat

/-- Whether `d · 10 ^ j` and `x · 2 ^ e` are the same. -/
def decimalEq (d : Nat) (j : Int) (x : Nat) (e : Int) : Bool :=
  d * Nat.pow 10 j.toNat * Nat.pow 2 (-e).toNat == x * Nat.pow 2 e.toNat * Nat.pow 10 (-j).toNat

/-- Whether `d · 10 ^ j` rounds to the magnitude of `x`. -/
def roundsTo (x : Binary64) (d : Nat) (j : Int) : Bool :=
  let e := x.exponent - 2
  let low := 4 * x.mantissa - (if x.mantissa = Nat.pow 2 52 ∧ -1074 < x.exponent then 1 else 2)
  let high := 4 * x.mantissa + 2
  let even := x.mantissa % 2 == 0
  (!decimalLe d j low e || (even && decimalEq d j low e)) &&
    decimalLe d j high e && (even || !decimalEq d j high e)

/-- How many digits stand before the point: the least `p` with the magnitude
below `10 ^ p`, searched downwards from `p`. -/
def places (x : Binary64) : Nat → Int → Int
  | 0, p => p
  | fuel + 1, p =>
    if decimalLe 1 (p - 1) x.mantissa x.exponent then p else places x fuel (p - 1)

/-- The multiple of `10 ^ j` at or below the magnitude. -/
def gridBelow (x : Binary64) (j : Int) : Nat :=
  let num := x.mantissa * Nat.pow 2 x.exponent.toNat * Nat.pow 10 (-j).toNat
  num / (Nat.pow 10 j.toNat * Nat.pow 2 (-x.exponent).toNat)

/-- Which of `d` and `d + 1` is nearer to the magnitude on the grid of
`10 ^ j`; a tie goes to the even one. -/
def nearer (x : Binary64) (d : Nat) (j : Int) : Nat :=
  let middle := 2 * d + 1
  if decimalEq middle j (2 * x.mantissa) x.exponent then (if d % 2 = 0 then d else d + 1)
  else if decimalLe middle j (2 * x.mantissa) x.exponent then d + 1
  else d

/-- Tries the grids of `n`, `n + 1`, … digits, `fuel` of them. -/
def search (x : Binary64) (p : Int) : Nat → Nat → Nat × Int
  | 0, n => (gridBelow x (p - n), p - n)
  | fuel + 1, n =>
    let j := p - n
    let d := gridBelow x j
    match roundsTo x d j, roundsTo x (d + 1) j with
    | true, true => (nearer x d j, j)
    | true, false => (d, j)
    | false, true => (d + 1, j)
    | false, false => search x p fuel (n + 1)

/-- The digits and the power of ten that they count, without trailing zeros
in the digits. -/
def shortest (x : Binary64) : Nat × Int :=
  let p := places x 650 309
  trimZeros 20 (search x p 17 1)
where
  trimZeros : Nat → Nat × Int → Nat × Int
    | 0, r => r
    | fuel + 1, (d, j) => if d ≠ 0 ∧ d % 10 = 0 then trimZeros fuel (d / 10, j + 1) else (d, j)

/-- The written form: positional between `10 ^ -5` and `10 ^ 16`, always with
a point, else with an exponent. -/
def chars (x : Binary64) : List Char :=
  let sign := if x.negative then ['-'] else []
  if x.isZero then sign ++ "0.0".toList
  else
    let (d, j) := shortest x
    let ds := Nat.toDigits 10 d
    let point : Int := ds.length + j
    sign ++
      if 0 ≤ j ∧ point ≤ 16 then ds ++ List.replicate j.toNat '0' ++ ".0".toList
      else if 0 < point ∧ point ≤ 16 then ds.take point.toNat ++ ['.'] ++ ds.drop point.toNat
      else if -5 < point ∧ point ≤ 0 then "0.".toList ++ List.replicate (-point).toNat '0' ++ ds
      else
        let rest := ds.drop 1
        ds.take 1 ++ (if rest.isEmpty then [] else '.' :: rest) ++ ['e'] ++
          (if point - 1 < 0 then ['-'] else []) ++ Nat.toDigits 10 (point - 1).natAbs

end TokenSale.Binary64
