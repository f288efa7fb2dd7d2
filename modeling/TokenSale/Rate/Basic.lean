import TokenSale.Identity
import TokenSale.Instant.Text
import TokenSale.Quantity

/-!
# TokenSale.Rate.Basic

What a payment currency is worth in the unit of account.

* `Rate` — an exact ratio and the time at which it was observed;
* `toUnits`, `toFunds` — conversion in both directions, rounded so that
  nobody is credited with more than was paid;
* `checkFresh` — refuses a rate that is unusable, from the future or too old;
* `Quote` — a ratio without a time.
-/

namespace TokenSale

/-- One currency base unit is worth `numerator / denominator` base units of
account, as observed at `asOf`. -/
structure Rate where
  numerator : Units
  denominator : Funds
  asOf : Instant
  deriving DecidableEq

/-- A ratio without a time. -/
structure Quote where
  numerator : Units
  denominator : Funds
  deriving DecidableEq

/-- The ratio as observed at a time. -/
def Quote.at (q : Quote) (t : Instant) : Rate := ⟨q.numerator, q.denominator, t⟩

/-- Why a rate is structurally unusable. -/
inductive RateFault where
  /-- One side of the ratio is zero. -/
  | zeroNumeratorOrDenominator
  /-- The same, noticed while a purchase is planned. -/
  | zeroSide
  /-- The rate was observed after the time it is checked against. -/
  | fromFuture (asOf now : Instant)
  deriving DecidableEq

/-- Why there is no rate to use. -/
inductive RateError where
  /-- Nothing is known about the currency. -/
  | missing (currency : Currency)
  /-- The rate is older than the tolerance. -/
  | stale (currency : Currency) (age tolerance : Int)
  /-- The rate cannot be used at all. -/
  | invalid (currency : Currency) (fault : RateFault)
  /-- The source could not be reached. -/
  | transport (reason : String)
  deriving DecidableEq

/-- The reason in a message. -/
def RateFault.message : RateFault → String
  | zeroNumeratorOrDenominator => "zero numerator or denominator"
  | zeroSide => "rate has a zero side"
  | fromFuture asOf now => s!"as_of {asOf.messageText} is after now {now.messageText}"

/-- The message of an error. -/
def RateError.message : RateError → String
  | missing currency => s!"no rate for currency {currency}"
  | stale currency age tolerance =>
    s!"stale rate for {currency}: age {age}s exceeds tolerance {tolerance}s"
  | invalid currency fault => s!"invalid rate for {currency}: {fault.message}"
  | transport reason => s!"rate feed transport error: {reason}"

namespace Rate

/-- Both sides are above zero. -/
def isUsable (r : Rate) : Bool := !r.numerator.isZero && !r.denominator.isZero

/-- What a payment is worth, rounded down. -/
def toUnits (r : Rate) (amount : Funds) : Option Units :=
  amount.mulDivFloor r.numerator r.denominator

/-- The payment that is worth at least `units`, rounded up. -/
def toFunds (r : Rate) (units : Units) : Option Funds :=
  units.mulDivCeil r.denominator r.numerator

/-- Refuses a rate with a zero side, one observed after `now`, and one whose
age in whole seconds exceeds the tolerance. -/
def checkFresh (currency : Currency) (r : Rate) (now : Instant) (tolerance : Int) :
    Except RateError Unit :=
  let age := now.wholeSecondsSince r.asOf
  if !r.isUsable then .error (.invalid currency .zeroNumeratorOrDenominator)
  else if now < r.asOf then .error (.invalid currency (.fromFuture r.asOf now))
  else if tolerance < age then .error (.stale currency age tolerance)
  else .ok ()

/-- A rate is usable if neither side of it is zero. -/
theorem isUsable_iff {r : Rate} :
    r.isUsable = true ↔ 0 < r.numerator.val ∧ 0 < r.denominator.val := by
  simp [isUsable]

end Rate

/-- The rates that are known, by currency. -/
abbrev RateTable := Directory Currency Rate

/-- The rate of a currency. -/
def RateTable.rate (t : RateTable) (c : Currency) : Except RateError Rate :=
  match t.get? c with
  | some r => .ok r
  | none => .error (.missing c)

end TokenSale
