import TokenSale.Identity
import TokenSale.Price
import TokenSale.Uuid

/-!
# TokenSale.Sale.Event

What a sale reports to the outside: one event for every effect that can be
observed.
-/

namespace TokenSale

/-- An accounting or lifecycle event. -/
inductive SaleEvent where
  /-- One for every part of a tier that a purchase draws from, in order. -/
  | tokenPurchase (purchaseId : Uuid) (buyer beneficiary : InvestorId) (currency : Currency)
      (tierIndex : Nat) (isDiscount : Bool) (tokens : Tokens) (units : Units) (price : Price)
  | fundsReceived (purchaseId : Uuid) (currency : Currency) (amount : Funds)
      (destination : String)
  | refunded (purchaseId : Uuid) (investor : InvestorId) (currency : Currency) (amount : Funds)
  | configChanged (field : String) (version : Nat)
  | paused (version : Nat)
  | unpaused (version : Nat)
  | finalized (treasury : InvestorId) (unsoldTokens tokensSold : Tokens)
  deriving DecidableEq

/-- The kind under which an event is filed. -/
def SaleEvent.kind : SaleEvent → String
  | tokenPurchase .. => "TOKEN_PURCHASE"
  | fundsReceived .. => "FUNDS_RECEIVED"
  | refunded .. => "REFUNDED"
  | configChanged .. => "CONFIG_CHANGED"
  | paused .. => "PAUSED"
  | unpaused .. => "UNPAUSED"
  | finalized .. => "FINALIZED"

end TokenSale
