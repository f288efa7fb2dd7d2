import TokenSale.Json.Pointer
import TokenSale.Json.Printer
import TokenSale.Price.Text
import TokenSale.Sale.Config
import TokenSale.Tier.Ledger
import TokenSale.Wire.Sale

/-!
# TokenSale.Setup.SaleSetup

Everything that a sale needs, out of a configuration: its parameters under
`/sale`, its tiers under `/tiers` and the rates of its currencies under
`/rates`.  Amounts are spelt as integers or as texts of digits; prices also as
`units/tokens`, and rates as `numerator/denominator` or by their two sides.

* `SaleSetup.ofConfig` — the setup, or the first setting that is wrong.
-/

namespace TokenSale

/-- What is wrong with a setting. -/
inductive SettingFault where
  | missing
  | missingList
  | notUuid
  | notString (found : Json)
  | negativeOrFraction (found : Json)
  | notDigits (found : String)
  | notInteger (found : Json)
  | notBool (found : Json)
  | notTime (found : String)
  | notCurrencyCode
  | priceNotPositive (found : Json)
  | badPrice (found : String)
  | notPrice (found : Json)
  | halfDiscount
  | notRateMap
  | notQuote
  | badNumerator (found : String)
  | badDenominator (found : String)
  | zeroRateSide

/-- The reason in a message. -/
def SettingFault.message : SettingFault → String
  | missing => "required"
  | missingList => "required list"
  | notUuid => "not a uuid"
  | notString found => s!"expected string, got {found.compact}"
  | negativeOrFraction found => s!"expected a non-negative integer, got {found.compact}"
  | notDigits found => s!"not a non-negative integer: {Text.quoted found}"
  | notInteger found => s!"expected integer, got {found.compact}"
  | notBool found => s!"expected bool, got {found.compact}"
  | notTime found => s!"not RFC 3339: {Text.quoted found}"
  | notCurrencyCode => "expected currency code"
  | priceNotPositive found => s!"price must be a positive integer, got {found.compact}"
  | badPrice found => s!"bad price {Text.quoted found} (expected \"u\" or \"u/t\")"
  | notPrice found => s!"expected price, got {found.compact}"
  | halfDiscount => "discount_price and discount_capacity must be given together"
  | notRateMap => "expected map of currency -> rate"
  | notQuote => "expected \x7bnumerator, denominator\x7d"
  | badNumerator found => s!"bad numerator in {Text.quoted found}"
  | badDenominator found => s!"bad denominator in {Text.quoted found}"
  | zeroRateSide => "rate sides must be > 0"

/-- Why a configuration makes no setup. -/
inductive SetupError where
  /-- The setting at a path is wrong. -/
  | setting (path : String) (fault : SettingFault)
  /-- The parameters do not fit together. -/
  | parameters (fault : ConfigFault)
  /-- The tiers make no ledger. -/
  | tiers (cause : LedgerError)

/-- The message of an error; the cause of refused tiers is told apart from it. -/
def SetupError.message : SetupError → String
  | setting path fault => s!"{path}: {fault.message}"
  | parameters fault => s!"CONFIG_INVALID /sale: {fault.message}"
  | tiers _ => "CONFIG_INVALID /tiers"

/-- The error below a message, if there is one. -/
def SetupError.cause? : SetupError → Option LedgerError
  | tiers cause => some cause
  | _ => none

/-! ## single settings -/

/-- A setting: the path that it is reported under, and what stands there.
Null counts as nothing. -/
structure Setting where
  path : String
  value : Option Json

namespace Setting

/-- The setting at a path of a configuration. -/
def ofPath (config : Json) (path : String) : Setting := ⟨path, config.pointer? path⟩

/-- A setting that is wrong. -/
def refuse {α : Type} (s : Setting) (fault : SettingFault) : Except SetupError α :=
  .error (.setting s.path fault)

/-- A setting that must be there. -/
def demand {α : Type} (s : Setting) (read : Setting → Except SetupError (Option α)) :
    Except SetupError α :=
  match read s with
  | .error e => .error e
  | .ok none => s.refuse .missing
  | .ok (some a) => .ok a

/-- A text without the blanks at its ends; a blank one counts as nothing. -/
def text? (s : Setting) : Except SetupError (Option String) :=
  match s.value with
  | none | some .null => .ok none
  | some (.str t) => .ok (if Text.isBlankText t then none else some (Text.trimmed t))
  | some found => s.refuse (.notString found)

/-- An amount. -/
def quantity? {sc : Scale} (s : Setting) : Except SetupError (Option (Quantity sc)) :=
  match s.value with
  | none | some .null => .ok none
  | some (.int n) =>
    match if 0 ≤ n then Quantity.ofNat? n.toNat else none with
    | some q => .ok (some q)
    | none => s.refuse (.negativeOrFraction (.int n))
  | some (.float x) => s.refuse (.negativeOrFraction (.float x))
  | some (.str t) =>
    match Quantity.ofText? t with
    | some q => .ok (some q)
    | none => s.refuse (.notDigits t)
  | some found => s.refuse (.notInteger found)

/-- An integer of 64 bits. -/
def integer? (s : Setting) : Except SetupError (Option Int) :=
  match s.value with
  | none | some .null => .ok none
  | some found =>
    match Json.decodeInt64 found with
    | .ok n => .ok (some n)
    | .error _ => s.refuse (.notInteger found)

/-- A flag. -/
def flag? (s : Setting) : Except SetupError (Option Bool) :=
  match s.value with
  | none | some .null => .ok none
  | some (.bool b) => .ok (some b)
  | some found => s.refuse (.notBool found)

/-- An identifier. -/
def uuid (s : Setting) : Except SetupError Uuid := do
  match Uuid.ofText? (← s.demand text?) with
  | some u => .ok u
  | none => s.refuse .notUuid

/-- A time. -/
def time (s : Setting) : Except SetupError Instant := do
  let t ← s.demand text?
  match Instant.ofRfc3339? t with
  | some i => .ok i
  | none => s.refuse (.notTime t)

/-- The items of a list, each as a setting of its own. -/
def items (s : Setting) : Except SetupError (List Setting) :=
  match s.value with
  | some (.arr vs) => .ok (vs.mapIdx fun i v => ⟨s!"{s.path}/{i}", some v⟩)
  | _ => s.refuse .missingList

/-- A member of an object. -/
def member (s : Setting) (key : String) : Setting :=
  ⟨s!"{s.path}/{key}", s.value.bind (Json.member? key)⟩

/-- The code of a currency. -/
def currency (s : Setting) : Except SetupError Currency :=
  match (s.value.bind Json.string?).filter fun t => !Text.isBlankText t with
  | some t => .ok (.ofText t)
  | none => s.refuse .notCurrencyCode

/-- A price. -/
def price? (s : Setting) : Except SetupError (Option Price) :=
  match s.value with
  | none | some .null => .ok none
  | some (.int n) =>
    match if 0 ≤ n then (Quantity.ofNat? n.toNat).bind Price.perToken? else none with
    | some p => .ok (some p)
    | none => s.refuse (.priceNotPositive (.int n))
  | some (.float x) => s.refuse (.priceNotPositive (.float x))
  | some (.str t) =>
    match Price.ofText? t with
    | some p => .ok (some p)
    | none => s.refuse (.badPrice t)
  | some found => s.refuse (.notPrice found)

/-- The sides of a rate in one text. -/
def quoteOfText (s : Setting) (t : String) (numerator denominator : List Char) :
    Except SetupError Quote :=
  match Quantity.ofChars? numerator with
  | none => s.refuse (.badNumerator t)
  | some n =>
    match Quantity.ofChars? denominator with
    | none => s.refuse (.badDenominator t)
    | some d => .ok ⟨n, d⟩

/-- A rate without a time, whatever its sides. -/
def anyQuote (s : Setting) : Except SetupError Quote :=
  match s.value with
  | some (.obj members) =>
    match Quote.decode (.obj members) with
    | .ok q => .ok q
    | .error _ => s.refuse .notQuote
  | some (.str t) =>
    match Text.splitOnce '/' t.toList with
    | some (numerator, denominator) => s.quoteOfText t numerator denominator
    | none => (s.demand quantity?).map fun n => ⟨n, .one⟩
  | _ => (s.demand quantity?).map fun n => ⟨n, .one⟩

/-- A rate without a time, both sides above zero. -/
def quote (s : Setting) : Except SetupError Quote := do
  let q ← s.anyQuote
  if q.numerator.isZero || q.denominator.isZero then s.refuse .zeroRateSide else .ok q

/-- The shape of a tier.  What is said about a discount is said in full or
not at all. -/
def tier (s : Setting) : Except SetupError TierSpec := do
  let price ← (s.member "price").demand price?
  let capacity ← (s.member "capacity").demand quantity?
  let spec := TierSpec.regular price capacity
  match ← (s.member "discount_price").price?, ← (s.member "discount_capacity").quantity? with
  | some p, some c => .ok (spec.withDiscount p c)
  | none, none => .ok spec
  | _, _ => s.refuse .halfDiscount

end Setting

/-! ## setups -/

/-- Everything that a sale needs. -/
structure SaleSetup where
  config : SaleConfig
  tiers : List TierSpec
  rates : Directory Currency Quote

namespace SaleSetup

/-- A setup as a document. -/
def encode (s : SaleSetup) : Json :=
  .obj [("config", s.config.encode), ("tiers", .arr (s.tiers.map TierSpec.encode)),
    ("rates", .obj (s.rates.entries.map fun p => (p.1.code, p.2.encode)))]

/-- The tolerance for the age of rates, in seconds, if none is given. -/
def defaultTolerance : Int := 3600

/-- The parameters under `/sale`, whether or not they fit together. -/
def readConfig (config : Json) : Except SetupError SaleConfig := do
  let setting (key : String) : Setting := .ofPath config s!"/sale/{key}"
  let saleId ← (setting "sale_id").uuid
  let startTime ← (setting "start_time").time
  let endTime ← (setting "end_time").time
  let nonAccreditedLimit ← (setting "non_accredited_limit").demand Setting.quantity?
  let minimumInvestment ← (setting "minimum_investment").quantity?
  let accepted ← (← (setting "accepted_currencies").items).mapM Setting.currency
  let discountCurrency ← (setting "discount_currency").text?
  let settlementDestination ← (setting "settlement_destination").demand Setting.text?
  let treasury ← (setting "treasury").demand Setting.text?
  let tolerance ← (setting "rate_tolerance_secs").integer?
  let allow ← (setting "allow_beneficial_investments").flag?
  return {
    saleId
    startTime
    endTime
    nonAccreditedLimit
    minimumInvestment := minimumInvestment.getD .zero
    acceptedCurrencies := .of accepted
    discountCurrency := discountCurrency.map .ofText
    settlementDestination
    treasury := ⟨treasury⟩
    rateToleranceSecs := tolerance.getD defaultTolerance
    allowBeneficialInvestments := allow.getD false }

/-- The tiers under `/tiers`, whether or not they make a ledger. -/
def readTiers (config : Json) : Except SetupError (List TierSpec) := do
  (← (Setting.ofPath config "/tiers").items).mapM Setting.tier

/-- The rates under `/rates`, none if there is no such path.  Of two spellings
of a currency the later one wins. -/
def readRates (config : Json) : Except SetupError (Directory Currency Quote) :=
  let s := Setting.ofPath config "/rates"
  match s.value with
  | none => .ok .empty
  | some (.obj members) => do
    let entries ← members.mapM fun p => do
      return (Currency.ofText p.1, ← (Setting.mk s!"{s.path}/{p.1}" (some p.2)).quote)
    return .ofList entries
  | some _ => s.refuse .notRateMap

/-- The setup of a configuration. -/
def ofConfig (config : Json) : Except SetupError SaleSetup := do
  let parameters ← readConfig config
  parameters.validate.mapError .parameters
  let tiers ← readTiers config
  let _ ← (TierLedger.ofSpecs tiers).mapError .tiers
  let rates ← readRates config
  return ⟨parameters, tiers, rates⟩

end SaleSetup

end TokenSale
