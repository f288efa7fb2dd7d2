import TokenSale.Identity
import TokenSale.Instant.Text
import TokenSale.Quantity
import TokenSale.Uuid

/-!
# TokenSale.Sale.Config

The fixed parameters of one sale, apart from its tiers, and the checks across
them.
-/

namespace TokenSale

/-- A set of currencies, listed in order. -/
abbrev CurrencySet := Directory Currency Unit

/-- The set of the listed currencies. -/
def CurrencySet.of (cs : List Currency) : CurrencySet :=
  Directory.ofList (cs.map fun c => (c, ()))

/-- The parameters of a sale. -/
structure SaleConfig where
  saleId : Uuid
  startTime : Instant
  endTime : Instant
  nonAccreditedLimit : Units
  /-- The least worth of an investor's first purchase. -/
  minimumInvestment : Units
  acceptedCurrencies : CurrencySet
  /-- The currency that may buy from discounted parts. -/
  discountCurrency : Option Currency
  /-- Where the payments that are kept go. -/
  settlementDestination : String
  /-- Receives what is unsold in the end. -/
  treasury : InvestorId
  rateToleranceSecs : Int
  /-- Whether somebody may buy for somebody else. -/
  allowBeneficialInvestments : Bool

/-- What is wrong with the parameters of a sale. -/
inductive ConfigFault where
  | endNotAfterStart (startTime endTime : Instant)
  | noCurrencies
  | discountNotAccepted (currency : Currency)
  | toleranceNotPositive
  | noDestination
  | noTreasury
  deriving DecidableEq

/-- The reason in a message. -/
def ConfigFault.message : ConfigFault → String
  | endNotAfterStart startTime endTime =>
    s!"end_time {endTime.messageText} must be after start_time {startTime.messageText}"
  | noCurrencies => "accepted_currencies must not be empty"
  | discountNotAccepted currency => s!"discount_currency {currency} is not an accepted currency"
  | toleranceNotPositive => "rate_tolerance_secs must be > 0"
  | noDestination => "settlement_destination must not be empty"
  | noTreasury => "treasury must not be empty"

namespace SaleConfig

/-- Whether a currency is accepted. -/
def accepts (c : SaleConfig) (currency : Currency) : Bool :=
  c.acceptedCurrencies.contains currency

/-- The first fault across the parameters. -/
def fault? (c : SaleConfig) : Option ConfigFault :=
  if c.endTime ≤ c.startTime then some (.endNotAfterStart c.startTime c.endTime)
  else if c.acceptedCurrencies.entries.isEmpty then some .noCurrencies
  else match c.discountCurrency.filter fun d => !c.accepts d with
    | some d => some (.discountNotAccepted d)
    | none =>
      if c.rateToleranceSecs ≤ 0 then some .toleranceNotPositive
      else if Text.isBlankText c.settlementDestination then some .noDestination
      else if Text.isBlankText c.treasury.name then some .noTreasury
      else none

/-- Refuses parameters with a fault. -/
def validate (c : SaleConfig) : Except ConfigFault Unit :=
  match c.fault? with
  | some fault => .error fault
  | none => .ok ()

end SaleConfig

end TokenSale
