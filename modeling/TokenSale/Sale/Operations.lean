import TokenSale.Sale.Settlement

/-!
# TokenSale.Sale.Operations

The operations of a sale.

* `configure` and its kin — administration, until the sale opens;
* `purchase`, `preview`, `retrySettlement` — purchasing;
* `finalize` — sends what is unsold to the treasury once the sale has closed.
-/

namespace TokenSale

namespace Sale

/-! ## administration -/

/-- Tells the event sink; a refusal changes nothing. -/
def announce (event : SaleEvent) : Program Unit := do
  let _ ← Program.perform (.emit event)
  pure ()

/-- Makes a change and announces it. -/
def administer (c : Book.Change) : Program (Except SaleError Unit) := do
  match ← Program.attempt fun b now => b.change c now with
  | .error e => pure (.error e)
  | .ok version =>
    announce (.configChanged c.field version)
    pure (.ok ())

/-- Sets all parameters and all tiers. -/
def configure (config : SaleConfig) (specs : List TierSpec) : Program (Except SaleError Unit) :=
  match config.fault? with
  | some fault => pure (.error (.invalidConfig (.parameters fault)))
  | none =>
    match TierLedger.ofSpecs specs with
    | .error e => pure (.error (.invalidConfig (.tiers e)))
    | .ok tiers => administer (.configure config tiers)

/-- Replaces the tiers. -/
def setTiers (specs : List TierSpec) : Program (Except SaleError Unit) :=
  match TierLedger.ofSpecs specs with
  | .error e => pure (.error (.invalidConfig (.tiers e)))
  | .ok tiers => administer (.tiers tiers)

/-- Sets the limit of non-accredited investors and the least first purchase. -/
def setLimits (nonAccreditedLimit minimumInvestment : Units) : Program (Except SaleError Unit) :=
  administer (.limits nonAccreditedLimit minimumInvestment)

/-- Sets the accepted currencies and the one that may draw from discounted parts. -/
def setAcceptedCurrencies (accepted : CurrencySet) (discountCurrency : Option Currency) :
    Program (Except SaleError Unit) :=
  administer (.acceptedCurrencies accepted discountCurrency)

/-- Sets when the sale opens and when it ends. -/
def setTimes (startTime endTime : Instant) : Program (Except SaleError Unit) :=
  administer (.times startTime endTime)

/-- Gives an investor a limit of their own. -/
def setLimitOverride (investor : InvestorId) (limit : Units) : Program (Except SaleError Unit) :=
  administer (.limitOverride investor limit)

/-- Sets whether somebody may buy for somebody else. -/
def setAllowBeneficialInvestments (allow : Bool) : Program (Except SaleError Unit) :=
  administer (.allowBeneficialInvestments allow)

/-- Stops purchases or lets them go on; nothing is announced if that was so
already. -/
def setPaused (paused : Bool) : Program (Except SaleError Unit) := do
  match ← Program.attempt fun b _ => b.setPaused paused with
  | .error e => pure (.error e)
  | .ok none => pure (.ok ())
  | .ok (some version) =>
    announce (if paused then .paused version else .unpaused version)
    pure (.ok ())

/-! ## purchasing -/

/-- What can be decided about a request before anybody is called. -/
def precheck (config : Option SaleConfig) (r : PurchaseRequest) : Except SaleError Unit :=
  match config with
  | none => .error (.saleNotOpen .unconfigured)
  | some c =>
    if !c.accepts r.currency then .error (.unsupportedCurrency r.currency)
    else if r.recipient ≠ r.buyer ∧ !c.allowBeneficialInvestments then
      .error (.beneficiaryNotAllowed r.buyer r.recipient)
    else .ok ()

/-- Everything about a request that is decided outside the lock. -/
def check (r : PurchaseRequest) : Program (Except SaleError Book.Checked) := do
  if r.amount.isZero then pure (.error .invalidAmount)
  else
    match ← Program.look fun b _ => precheck b.config? r with
    | .error e => pure (.error e)
    | .ok () =>
      match ← Program.ask (.compliance r.recipient) with
      | .error e => pure (.error (.collaborator e))
      | .ok verdict =>
        if !verdict.allowed then pure (.error (.notWhitelisted r.recipient))
        else
          match ← Program.ask (.rate r.currency) with
          | .error e => pure (.error (.rateUnavailable e))
          | .ok rate => pure (.ok ⟨verdict.investorClass, rate⟩)

/-- What a purchase would get right now. -/
def preview (r : PurchaseRequest) : Program (Except SaleError AllocationPlan) := do
  match ← check r with
  | .error e => pure (.error e)
  | .ok checked => Program.look fun b now => b.plan r checked now

/-- Checks, commits and settles a purchase. -/
def purchase (r : PurchaseRequest) : Program (Except SaleError PurchaseReceipt) := do
  match ← check r with
  | .error e => pure (.error e)
  | .ok checked =>
    match ← Program.attempt fun b now => b.commitPurchase r checked now with
    | .error e => pure (.error e)
    | .ok record =>
      match ← settle record.purchaseId with
      | .error e => pure (.error e)
      | .ok settlement => pure (.ok ⟨record.purchaseId, record.plan, settlement⟩)

/-- Replays the effects of a purchase that have not landed. -/
def retrySettlement (id : Uuid) : Program (Except SaleError SettlementStatus) := settle id

/-! ## finalizing -/

/-- The identity under which unsold tokens are issued. -/
def finalizeId (saleId : Uuid) : Uuid := saleId.derive "finalize"

/-- Sends what is unsold to the treasury. -/
def finalize : Program (Except SaleError Tokens) := do
  match ← Program.attempt fun b now => b.beginFinalize now with
  | .error e => pure (.error e)
  | .ok closing =>
    let issued ←
      if closing.unsold.isZero then pure (.ok ())
      else Program.perform (.issue (finalizeId closing.saleId) closing.treasury closing.unsold)
    match issued with
    | .error e =>
      Program.atomically fun b _ => ((), b.endFinalize false)
      pure (.error (.collaborator e))
    | .ok () =>
      Program.atomically fun b _ => ((), b.endFinalize true)
      announce (.finalized closing.treasury closing.unsold closing.sold)
      pure (.ok closing.unsold)

end Sale

end TokenSale
