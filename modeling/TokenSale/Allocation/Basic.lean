import TokenSale.Cap.Tracker
import TokenSale.Rate.Basic
import TokenSale.Tier.Ledger

/-!
# TokenSale.Allocation.Basic

What goes into the planning of a purchase and what comes out of it.  A plan
says which bands of which tiers a purchase draws from, and what of the
payment is kept and what goes back; it changes nothing until it is committed.
-/

namespace TokenSale

/-- What the sale decides about every purchase. -/
structure AllocationPolicy where
  /-- The least worth of an investor's first purchase. -/
  minimumInvestment : Units
  /-- The only currency that may draw from discounted parts. -/
  discountCurrency : Option Currency
  deriving DecidableEq

/-- Whether a currency may draw from discounted parts. -/
def AllocationPolicy.isDiscountEligible (p : AllocationPolicy) (c : Currency) : Bool :=
  p.discountCurrency == some c

/-- One purchase, with its rate pinned. -/
structure AllocationInput where
  investor : InvestorId
  investorClass : InvestorClass
  currency : Currency
  amount : Funds
  rate : Rate
  /-- Fewer tokens than this are refused. -/
  minTokens : Option Tokens
  deriving DecidableEq

/-- What a purchase draws from one band of one tier. -/
structure Fill where
  tierIndex : Nat
  isDiscount : Bool
  tokens : Tokens
  units : Units
  price : Price
  deriving DecidableEq

/-- The sums of a plan. -/
structure PurchaseResult where
  tokensAllocated : Tokens
  unitsConsumed : Units
  fundsConsumed : Funds
  fundsRefunded : Funds
  deriving DecidableEq

/-- What a purchase would do. -/
structure AllocationPlan where
  investor : InvestorId
  investorClass : InvestorClass
  currency : Currency
  amount : Funds
  rate : Rate
  /-- What the payment is worth. -/
  requestedUnits : Units
  /-- The same, bounded by what the investor may still spend. -/
  availableUnits : Units
  /-- In the order of the walk, without empty ones. -/
  fills : List Fill
  result : PurchaseResult
  deriving DecidableEq

/-- Where a sum or a product left the range of amounts. -/
inductive AllocationStage where
  | fundsToUnits
  | capHeadroom
  | tierCost
  | tierSplit
  | tierSplitCost
  | tokenTotal
  | unitTotal
  | unitsToFunds
  | capCommit
  deriving DecidableEq

/-- The name of a stage in messages. -/
def AllocationStage.name : AllocationStage → String
  | fundsToUnits => "currency to units"
  | capHeadroom => "cap headroom"
  | tierCost => "tier cost"
  | tierSplit => "tier split"
  | tierSplitCost => "tier split cost"
  | tokenTotal => "token total"
  | unitTotal => "unit total"
  | unitsToFunds => "units to currency"
  | capCommit => "cap commit"

/-- Why there is no plan, or why it was not committed. -/
inductive AllocationError where
  | invalidAmount
  | rateUnavailable (currency : Currency)
  | belowMinimum (requested minimum : Units)
  | soldOut
  | capExceeded (investor : InvestorId) (limit invested : Units)
  | zeroAllocation (available : Units)
  | slippageExceeded (minTokens tokens : Tokens)
  | overflow (stage : AllocationStage)
  /-- A tier refused; the plan was made against other tiers. -/
  | capacityExceeded (cause : LedgerError)
  /-- The tracker refused; the plan was made against other sums. -/
  | capCommit (cause : CapError)
  deriving DecidableEq

/-- The message of an error. -/
def AllocationError.message : AllocationError → String
  | invalidAmount => "purchase amount must be > 0"
  | rateUnavailable currency => s!"no usable rate for {currency}"
  | belowMinimum requested minimum =>
    s!"first investment of {requested} units is below the minimum of {minimum}"
  | soldOut => "sale sold out"
  | capExceeded investor limit invested =>
    s!"investor {investor} has invested {invested} of a {limit} unit limit"
  | zeroAllocation available =>
    s!"{available} units buy zero tokens at the current tier price"
  | slippageExceeded minTokens tokens =>
    s!"allocation of {tokens} tokens is below requested minimum {minTokens}"
  | overflow stage => s!"arithmetic overflow during {stage.name}"
  | capacityExceeded cause => s!"tier commit refused: {cause.message}"
  | capCommit cause => s!"cap commit refused: {cause.message}"

end TokenSale
