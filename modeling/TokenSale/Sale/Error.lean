import TokenSale.Allocation.Basic
import TokenSale.Sale.State

/-!
# TokenSale.Sale.Error

Why a sale refuses.  Every refusal has a cause, a stable code, a message, and
a class that tells a caller what to do about it.
-/

namespace TokenSale

/-- What a sale calls upon outside itself. -/
inductive Service where
  | compliance
  | tokenLedger
  | settlement
  | eventSink
  | journal
  deriving DecidableEq

/-- The name of a service in messages. -/
def Service.name : Service → String
  | compliance => "compliance"
  | tokenLedger => "token ledger"
  | settlement => "settlement"
  | eventSink => "event sink"
  | journal => "journal"

/-- A service could not be reached or refused. -/
structure CollaboratorError where
  service : Service
  reason : String
  deriving DecidableEq

/-- The message of a failed service. -/
def CollaboratorError.message (e : CollaboratorError) : String :=
  s!"{e.service.name} failed: {e.reason}"

/-- What a caller should do about a refusal. -/
inductive ErrorClass where
  /-- The request itself is wrong. -/
  | inputValidation
  /-- Not under the present state; a smaller request may do. -/
  | capacity
  /-- Try again later. -/
  | infrastructure
  /-- The sale is not in the right state. -/
  | lifecycle
  deriving DecidableEq

/-- What is wrong with a configuration. -/
inductive SetupFault where
  | parameters (fault : ConfigFault)
  | tiers (cause : LedgerError)
  deriving DecidableEq

/-- The reason in a message. -/
def SetupFault.message : SetupFault → String
  | parameters fault => fault.message
  | tiers cause => cause.message

/-- Where a sum of the sale left the range of amounts. -/
inductive SaleStage where
  | unitsRaised
  | fundsRaised
  | tokensByCurrency
  | allocation (stage : AllocationStage)
  deriving DecidableEq

/-- The name of a stage in messages. -/
def SaleStage.name : SaleStage → String
  | unitsRaised => "units raised"
  | fundsRaised => "funds raised"
  | tokensByCurrency => "tokens by currency"
  | allocation stage => stage.name

/-- Why a sale refuses. -/
inductive SaleError where
  | invalidAmount
  | unsupportedCurrency (currency : Currency)
  | beneficiaryNotAllowed (buyer beneficiary : InvestorId)
  | notWhitelisted (investor : InvestorId)
  | belowMinimum (requested minimum : Units)
  | zeroAllocation (available : Units)
  | slippageExceeded (minTokens tokens : Tokens)
  | duplicatePurchase (purchaseId : Uuid)
  | unknownPurchase (purchaseId : Uuid)
  | invalidConfig (fault : SetupFault)
  | overflow (stage : SaleStage)
  | capExceeded (investor : InvestorId) (limit invested : Units)
  | soldOut
  | capacityExceeded (cause : LedgerError)
  | rateUnavailable (cause : RateError)
  | collaborator (cause : CollaboratorError)
  | notConfigured
  | saleNotOpen (state : SaleState)
  | salePaused
  | configLocked (state : SaleState)
  | saleNotClosed (state : SaleState)
  | alreadyFinalized
  deriving DecidableEq

namespace SaleError

/-- What a caller should do. -/
def errorClass : SaleError → ErrorClass
  | invalidAmount | unsupportedCurrency _ | beneficiaryNotAllowed .. | notWhitelisted _
  | belowMinimum .. | zeroAllocation _ | slippageExceeded .. | duplicatePurchase _
  | unknownPurchase _ | invalidConfig _ | overflow _ => .inputValidation
  | capExceeded .. | soldOut | capacityExceeded _ => .capacity
  | rateUnavailable _ | collaborator _ => .infrastructure
  | notConfigured | saleNotOpen _ | salePaused | configLocked _ | saleNotClosed _
  | alreadyFinalized => .lifecycle

/-- Whether the same request may succeed later. -/
def isRetryable (e : SaleError) : Bool := e.errorClass == .infrastructure

/-- The stable code. -/
def code : SaleError → String
  | invalidAmount => "INVALID_AMOUNT"
  | unsupportedCurrency _ => "UNSUPPORTED_CURRENCY"
  | beneficiaryNotAllowed .. => "BENEFICIARY_NOT_ALLOWED"
  | notWhitelisted _ => "NOT_WHITELISTED"
  | belowMinimum .. => "BELOW_MINIMUM"
  | zeroAllocation _ => "ZERO_ALLOCATION"
  | slippageExceeded .. => "SLIPPAGE_EXCEEDED"
  | duplicatePurchase _ => "DUPLICATE_PURCHASE"
  | unknownPurchase _ => "UNKNOWN_PURCHASE"
  | invalidConfig _ => "INVALID_CONFIG"
  | overflow _ => "OVERFLOW"
  | capExceeded .. => "CAP_EXCEEDED"
  | soldOut => "SOLD_OUT"
  | capacityExceeded _ => "CAPACITY_EXCEEDED"
  | rateUnavailable _ => "RATE_UNAVAILABLE"
  | collaborator _ => "COLLABORATOR_UNAVAILABLE"
  | notConfigured => "NOT_CONFIGURED"
  | saleNotOpen _ => "SALE_NOT_OPEN"
  | salePaused => "SALE_PAUSED"
  | configLocked _ => "CONFIG_LOCKED"
  | saleNotClosed _ => "SALE_NOT_CLOSED"
  | alreadyFinalized => "ALREADY_FINALIZED"

/-- The message behind the code. -/
def detail : SaleError → String
  | invalidAmount => "amount must be > 0"
  | unsupportedCurrency currency => s!"{currency} is not accepted"
  | beneficiaryNotAllowed buyer beneficiary => s!"{buyer} may not buy on behalf of {beneficiary}"
  | notWhitelisted investor => toString investor
  | belowMinimum requested minimum => s!"{requested} units < minimum {minimum}"
  | zeroAllocation available => s!"{available} units buy no tokens"
  | slippageExceeded minTokens tokens => s!"{tokens} tokens < requested minimum {minTokens}"
  | duplicatePurchase purchaseId => toString purchaseId
  | unknownPurchase purchaseId => toString purchaseId
  | invalidConfig fault => fault.message
  | overflow stage => s!"arithmetic overflow at {stage.name}"
  | capExceeded investor limit invested => s!"{investor} invested {invested} of limit {limit}"
  | soldOut => "no tier has capacity left"
  | capacityExceeded cause => cause.message
  | rateUnavailable cause => cause.message
  | collaborator cause => cause.message
  | notConfigured => "sale has no configuration"
  | saleNotOpen state => s!"sale is {state}"
  | salePaused => "purchases are paused"
  | configLocked state => s!"sale is {state}"
  | saleNotClosed state => s!"sale is {state}"
  | alreadyFinalized => "sale was already finalized"

/-- The whole message. -/
def message (e : SaleError) : String := s!"{e.code}: {e.detail}"

/-- What a refusal to plan or to commit means to the buyer. -/
def ofAllocation : AllocationError → SaleError
  | .invalidAmount => invalidAmount
  | .rateUnavailable currency => rateUnavailable (.invalid currency .zeroSide)
  | .belowMinimum requested minimum => belowMinimum requested minimum
  | .soldOut => soldOut
  | .capExceeded investor limit invested => capExceeded investor limit invested
  | .zeroAllocation available => zeroAllocation available
  | .slippageExceeded minTokens tokens => slippageExceeded minTokens tokens
  | .overflow stage => overflow (.allocation stage)
  | .capacityExceeded cause => capacityExceeded cause
  | .capCommit (.capExceeded investor limit invested _) => capExceeded investor limit invested
  | .capCommit (.overflow _) => overflow (.allocation .capCommit)

end SaleError

end TokenSale
