import TokenSale.Sale.Record
import TokenSale.Wire.Allocation

/-!
# TokenSale.Wire.Sale

The JSON forms of the parameters, requests, records, sums and events of a
sale.
-/

namespace TokenSale

open Json

/-! ## parameters -/

/-- The parameters of a sale. -/
def SaleConfig.encode (c : SaleConfig) : Json :=
  .obj [("sale_id", c.saleId.encode), ("start_time", c.startTime.encode),
    ("end_time", c.endTime.encode), ("non_accredited_limit", c.nonAccreditedLimit.encode),
    ("minimum_investment", c.minimumInvestment.encode),
    ("accepted_currencies", .arr (c.acceptedCurrencies.keys.map Currency.encode)),
    ("discount_currency", .ofOption Currency.encode c.discountCurrency),
    ("settlement_destination", .str c.settlementDestination), ("treasury", c.treasury.encode),
    ("rate_tolerance_secs", .int c.rateToleranceSecs),
    ("allow_beneficial_investments", .bool c.allowBeneficialInvestments)]

/-- A set of currencies as a list. -/
def CurrencySet.decode : Decoder CurrencySet := fun v =>
  (decodeList Currency.decode v).map CurrencySet.of

/-- The parameters of a sale. -/
def SaleConfig.decode : Decoder SaleConfig := fun v => do
  let r ← record [known "sale_id" Uuid.decode, known "start_time" Instant.decode,
    known "end_time" Instant.decode,
    known "non_accredited_limit" (Quantity.decode (s := .units)),
    known "minimum_investment" (Quantity.decode (s := .units)),
    known "accepted_currencies" CurrencySet.decode,
    known "discount_currency" (decodeOption Currency.decode),
    known "settlement_destination" decodeString, known "treasury" InvestorId.decode,
    known "rate_tolerance_secs" decodeInt64,
    known "allow_beneficial_investments" decodeBool] v
  pure {
    saleId := ← required r "sale_id" Uuid.decode
    startTime := ← required r "start_time" Instant.decode
    endTime := ← required r "end_time" Instant.decode
    nonAccreditedLimit := ← required r "non_accredited_limit" Quantity.decode
    minimumInvestment := ← required r "minimum_investment" Quantity.decode
    acceptedCurrencies := ← required r "accepted_currencies" CurrencySet.decode
    discountCurrency := ← optional r "discount_currency" Currency.decode
    settlementDestination := ← required r "settlement_destination" decodeString
    treasury := ← required r "treasury" InvestorId.decode
    rateToleranceSecs := ← required r "rate_tolerance_secs" decodeInt64
    allowBeneficialInvestments := ← required r "allow_beneficial_investments" decodeBool }

namespace SaleState

/-- The wire name of a state. -/
def name : SaleState → String
  | unconfigured => "unconfigured"
  | scheduled => "scheduled"
  | opened => "open"
  | closed => "closed"

/-- The state of a wire name. -/
def ofName? (s : String) : Option SaleState :=
  [unconfigured, scheduled, opened, closed].find? fun c => c.name = s

/-- A state by its name. -/
def encode (s : SaleState) : Json := .str s.name

/-- A state by its name. -/
def decode : Decoder SaleState := decodeName ofName?

end SaleState

/-! ## purchases -/

/-- A request. -/
def PurchaseRequest.encode (r : PurchaseRequest) : Json :=
  .obj [("purchase_id", .ofOption Uuid.encode r.purchaseId), ("buyer", r.buyer.encode),
    ("beneficiary", .ofOption InvestorId.encode r.beneficiary),
    ("currency", r.currency.encode), ("amount", r.amount.encode),
    ("min_tokens", .ofOption Quantity.encode r.minTokens)]

/-- The members of a request. -/
def PurchaseRequest.members : List KnownMember :=
  [knownLast "purchase_id" (decodeOption Uuid.decode), known "buyer" InvestorId.decode,
    knownLast "beneficiary" (decodeOption InvestorId.decode), known "currency" Currency.decode,
    known "amount" (Quantity.decode (s := .funds)),
    knownLast "min_tokens" (decodeOption (Quantity.decode (s := .tokens)))]

/-- A request from the members of an object. -/
def PurchaseRequest.ofMembers (r : List (String × Json)) :
    Except DecodeError PurchaseRequest := do
  pure {
    purchaseId := ← optional r "purchase_id" Uuid.decode
    buyer := ← required r "buyer" InvestorId.decode
    beneficiary := ← optional r "beneficiary" InvestorId.decode
    currency := ← required r "currency" Currency.decode
    amount := ← required r "amount" Quantity.decode
    minTokens := ← optional r "min_tokens" Quantity.decode }

/-- A request. -/
def PurchaseRequest.decode : Decoder PurchaseRequest := fun v => do
  PurchaseRequest.ofMembers (← record PurchaseRequest.members v)

/-- The progress of a settlement; whether an attempt is under way is not told. -/
def SettlementProgress.encode (p : SettlementProgress) : Json :=
  .obj [("fills_recorded", .nat p.fillsRecorded), ("issued", .bool p.issued),
    ("forwarded", .bool p.forwarded), ("funds_recorded", .bool p.fundsRecorded),
    ("refunded", .bool p.refunded), ("refund_recorded", .bool p.refundRecorded),
    ("attempts", .nat p.attempts), ("last_error", .ofOption .str p.lastError)]

/-- The progress of a settlement, with no attempt under way. -/
def SettlementProgress.decode : Decoder SettlementProgress := fun v => do
  let r ← record [known "fills_recorded" decodeNat64, known "issued" decodeBool,
    known "forwarded" decodeBool, known "funds_recorded" decodeBool,
    known "refunded" decodeBool, known "refund_recorded" decodeBool,
    known "attempts" decodeNat32, known "last_error" (decodeOption decodeString)] v
  pure {
    fillsRecorded := ← required r "fills_recorded" decodeNat64
    issued := ← required r "issued" decodeBool
    forwarded := ← required r "forwarded" decodeBool
    fundsRecorded := ← required r "funds_recorded" decodeBool
    refunded := ← required r "refunded" decodeBool
    refundRecorded := ← required r "refund_recorded" decodeBool
    attempts := ← required r "attempts" decodeNat32
    lastError := ← optional r "last_error" decodeString
    inFlight := false }

/-- The status of a settlement, by its name under `status`. -/
def SettlementStatus.encode : SettlementStatus → Json
  | complete => .obj [("status", .str "complete")]
  | pending reason => .obj [("status", .str "pending"), ("reason", .str reason)]

/-- The status of a settlement. -/
def SettlementStatus.decode : Decoder SettlementStatus := fun v => do
  let (status, v) ← variant "status" v
  if status = "complete" then
    let _ ← record [] v
    pure .complete
  else if status = "pending" then do
    let r ← record [known "reason" decodeString] v
    pure (.pending (← required r "reason" decodeString))
  else .error .unexpected

/-- What a buyer is told. -/
def PurchaseReceipt.encode (r : PurchaseReceipt) : Json :=
  .obj [("purchase_id", r.purchaseId.encode), ("plan", r.plan.encode),
    ("settlement", r.settlement.encode)]

/-- What a buyer is told. -/
def PurchaseReceipt.decode : Decoder PurchaseReceipt := fun v => do
  let r ← record [known "purchase_id" Uuid.decode, known "plan" AllocationPlan.decode,
    known "settlement" SettlementStatus.decode] v
  pure ⟨← required r "purchase_id" Uuid.decode, ← required r "plan" AllocationPlan.decode,
    ← required r "settlement" SettlementStatus.decode⟩

/-- A committed purchase. -/
def PurchaseRecord.encode (r : PurchaseRecord) : Json :=
  .obj [("purchase_id", r.purchaseId.encode), ("buyer", r.buyer.encode),
    ("beneficiary", r.beneficiary.encode), ("class", r.investorClass.encode),
    ("rate", r.rate.encode), ("plan", r.plan.encode), ("committed_at", r.committedAt.encode),
    ("settlement", r.settlement.encode)]

/-- A committed purchase. -/
def PurchaseRecord.decode : Decoder PurchaseRecord := fun v => do
  let r ← record [known "purchase_id" Uuid.decode, known "buyer" InvestorId.decode,
    known "beneficiary" InvestorId.decode, known "class" InvestorClass.decode,
    known "rate" Rate.decode, known "plan" AllocationPlan.decode,
    known "committed_at" Instant.decode, known "settlement" SettlementProgress.decode] v
  pure {
    purchaseId := ← required r "purchase_id" Uuid.decode
    buyer := ← required r "buyer" InvestorId.decode
    beneficiary := ← required r "beneficiary" InvestorId.decode
    investorClass := ← required r "class" InvestorClass.decode
    rate := ← required r "rate" Rate.decode
    plan := ← required r "plan" AllocationPlan.decode
    committedAt := ← required r "committed_at" Instant.decode
    settlement := ← required r "settlement" SettlementProgress.decode }

/-! ## sums -/

/-- Amounts by currency. -/
def encodeByCurrency {s : Scale} (d : Directory Currency (Quantity s)) : Json :=
  .obj (d.entries.map fun p => (p.1.code, p.2.encode))

/-- Amounts by currency. -/
def decodeByCurrency {s : Scale} : Decoder (Directory Currency (Quantity s)) :=
  decodeDirectory Currency.ofText Quantity.decode

/-- The sums of a sale. -/
def SaleStats.encode (s : SaleStats) : Json :=
  .obj [("sale_id", .ofOption Uuid.encode s.saleId), ("state", s.state.encode),
    ("paused", .bool s.paused), ("finalized", .bool s.finalized), ("version", .nat s.version),
    ("tokens_sold", s.tokensSold.encode), ("tokens_remaining", s.tokensRemaining.encode),
    ("units_raised", s.unitsRaised.encode), ("funds_raised", encodeByCurrency s.fundsRaised),
    ("tokens_sold_by_currency", encodeByCurrency s.tokensSoldByCurrency),
    ("investor_count", .nat s.investorCount), ("purchase_count", .nat s.purchaseCount),
    ("pending_settlements", .nat s.pendingSettlements),
    ("current_tier", .ofOption .nat s.currentTier)]

/-- The sums of a sale. -/
def SaleStats.decode : Decoder SaleStats := fun v => do
  let r ← record [known "sale_id" (decodeOption Uuid.decode), known "state" SaleState.decode,
    known "paused" decodeBool, known "finalized" decodeBool, known "version" decodeNat64,
    known "tokens_sold" (Quantity.decode (s := .tokens)),
    known "tokens_remaining" (Quantity.decode (s := .tokens)),
    known "units_raised" (Quantity.decode (s := .units)),
    known "funds_raised" (decodeByCurrency (s := .funds)),
    known "tokens_sold_by_currency" (decodeByCurrency (s := .tokens)),
    known "investor_count" decodeNat64, known "purchase_count" decodeNat64,
    known "pending_settlements" decodeNat64,
    known "current_tier" (decodeOption decodeNat64)] v
  pure {
    saleId := ← optional r "sale_id" Uuid.decode
    state := ← required r "state" SaleState.decode
    paused := ← required r "paused" decodeBool
    finalized := ← required r "finalized" decodeBool
    version := ← required r "version" decodeNat64
    tokensSold := ← required r "tokens_sold" Quantity.decode
    tokensRemaining := ← required r "tokens_remaining" Quantity.decode
    unitsRaised := ← required r "units_raised" Quantity.decode
    fundsRaised := ← required r "funds_raised" decodeByCurrency
    tokensSoldByCurrency := ← required r "tokens_sold_by_currency" decodeByCurrency
    investorCount := ← required r "investor_count" decodeNat64
    purchaseCount := ← required r "purchase_count" decodeNat64
    pendingSettlements := ← required r "pending_settlements" decodeNat64
    currentTier := ← optional r "current_tier" decodeNat64 }

/-! ## events -/

namespace SaleEvent

/-- The wire name of an event, which stands under `type`. -/
def typeName : SaleEvent → String
  | tokenPurchase .. => "token_purchase"
  | fundsReceived .. => "funds_received"
  | refunded .. => "refunded"
  | configChanged .. => "config_changed"
  | paused .. => "paused"
  | unpaused .. => "unpaused"
  | finalized .. => "finalized"

/-- What an event tells. -/
def details : SaleEvent → List (String × Json)
  | tokenPurchase purchaseId buyer beneficiary currency tierIndex isDiscount tokens units price =>
    [("purchase_id", purchaseId.encode), ("buyer", buyer.encode),
      ("beneficiary", beneficiary.encode), ("currency", currency.encode),
      ("tier_index", .nat tierIndex), ("is_discount", .bool isDiscount),
      ("tokens", tokens.encode), ("units", units.encode), ("price", price.encode)]
  | fundsReceived purchaseId currency amount destination =>
    [("purchase_id", purchaseId.encode), ("currency", currency.encode),
      ("amount", amount.encode), ("destination", .str destination)]
  | refunded purchaseId investor currency amount =>
    [("purchase_id", purchaseId.encode), ("investor", investor.encode),
      ("currency", currency.encode), ("amount", amount.encode)]
  | configChanged field version => [("field", .str field), ("version", .nat version)]
  | paused version => [("version", .nat version)]
  | unpaused version => [("version", .nat version)]
  | finalized treasury unsoldTokens tokensSold =>
    [("treasury", treasury.encode), ("unsold_tokens", unsoldTokens.encode),
      ("tokens_sold", tokensSold.encode)]

/-- An event with its name. -/
def encode (e : SaleEvent) : Json := .obj (("type", .str e.typeName) :: e.details)

/-- An event of a given name. -/
def decodeAs (typeName : String) : Decoder SaleEvent := fun v => do
  if typeName = "token_purchase" then
    let r ← record [known "purchase_id" Uuid.decode, known "buyer" InvestorId.decode,
      known "beneficiary" InvestorId.decode, known "currency" Currency.decode,
      known "tier_index" decodeNat64, known "is_discount" decodeBool,
      known "tokens" (Quantity.decode (s := .tokens)),
      known "units" (Quantity.decode (s := .units)), known "price" Price.decode] v
    pure (.tokenPurchase (← required r "purchase_id" Uuid.decode)
      (← required r "buyer" InvestorId.decode) (← required r "beneficiary" InvestorId.decode)
      (← required r "currency" Currency.decode) (← required r "tier_index" decodeNat64)
      (← required r "is_discount" decodeBool) (← required r "tokens" Quantity.decode)
      (← required r "units" Quantity.decode) (← required r "price" Price.decode))
  else if typeName = "funds_received" then
    let r ← record [known "purchase_id" Uuid.decode, known "currency" Currency.decode,
      known "amount" (Quantity.decode (s := .funds)), known "destination" decodeString] v
    pure (.fundsReceived (← required r "purchase_id" Uuid.decode)
      (← required r "currency" Currency.decode) (← required r "amount" Quantity.decode)
      (← required r "destination" decodeString))
  else if typeName = "refunded" then
    let r ← record [known "purchase_id" Uuid.decode, known "investor" InvestorId.decode,
      known "currency" Currency.decode, known "amount" (Quantity.decode (s := .funds))] v
    pure (.refunded (← required r "purchase_id" Uuid.decode)
      (← required r "investor" InvestorId.decode) (← required r "currency" Currency.decode)
      (← required r "amount" Quantity.decode))
  else if typeName = "config_changed" then
    let r ← record [known "field" decodeString, known "version" decodeNat64] v
    pure (.configChanged (← required r "field" decodeString)
      (← required r "version" decodeNat64))
  else if typeName = "paused" then
    let r ← record [known "version" decodeNat64] v
    pure (.paused (← required r "version" decodeNat64))
  else if typeName = "unpaused" then
    let r ← record [known "version" decodeNat64] v
    pure (.unpaused (← required r "version" decodeNat64))
  else if typeName = "finalized" then
    let r ← record [known "treasury" InvestorId.decode,
      known "unsold_tokens" (Quantity.decode (s := .tokens)),
      known "tokens_sold" (Quantity.decode (s := .tokens))] v
    pure (.finalized (← required r "treasury" InvestorId.decode)
      (← required r "unsold_tokens" Quantity.decode)
      (← required r "tokens_sold" Quantity.decode))
  else .error .unexpected

/-- An event by its name; the name is read before anything else. -/
def decode : Decoder SaleEvent := fun v => do
  let (typeName, v) ← variant "type" v
  decodeAs typeName v

end SaleEvent

end TokenSale
