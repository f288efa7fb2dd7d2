import TokenSale.Allocation.Commit
import TokenSale.Sale.Error
import TokenSale.Sale.Record

/-!
# TokenSale.Sale.Book

Everything that a purchase reads or writes.  Each function here is one
uninterrupted step on the book: it sees a single snapshot and either returns
the changed book or leaves it as it was.

* `plan` — what a checked request would get right now;
* `commitPurchase` — plans a purchase and records it;
* `change` — one change of the parameters, refused once the sale has opened;
* `stats` — the sums of the sale.
-/

namespace TokenSale

/-- The parameters of a sale and its tiers. -/
structure Terms where
  config : SaleConfig
  tiers : TierLedger

/-- The state of one sale. -/
structure Book where
  terms : Option Terms
  caps : CapTracker
  paused : Bool
  finalized : Bool
  /-- The unsold tokens are being issued. -/
  finalizing : Bool
  /-- Counts successful changes, by one each.  The program keeps it in 64 bits;
  a book reaches `2 ^ 64` only by that many accepted calls, so no run that can
  be carried out tells the two apart. -/
  version : Nat
  /-- The number from which the next derived purchase id is sought, in 64 bits
  in the program.  Every number below it names a purchase on record, so unless
  derived identities collide there are at least as many purchases. -/
  nextSeq : Nat
  purchases : Directory Uuid PurchaseRecord
  unitsRaised : Units
  fundsRaised : Directory Currency Funds
  tokensByCurrency : Directory Currency Tokens

namespace Book

/-- The book of a sale without parameters. -/
def blank : Book :=
  ⟨none, .withLimit .zero, false, false, false, 0, 0, .empty, .zero, .empty, .empty⟩

instance : Inhabited Book := ⟨blank⟩

/-! ## reading -/

/-- The parameters, if there are any. -/
def config? (b : Book) : Option SaleConfig := b.terms.map Terms.config

/-- Whether there are tiers and nothing is left of them. -/
def isSoldOut (b : Book) : Bool := b.terms.any fun t => t.tiers.isSoldOut

/-- Where the sale stands. -/
def state (b : Book) (now : Instant) : SaleState := .derive b.config? now b.isSoldOut

/-- Closed because everything is sold, before its time. -/
def isSoldOutBeforeEnd (b : Book) (now : Instant) : Bool :=
  b.terms.any fun t => t.tiers.isSoldOut && now < t.config.endTime

/-- The tiers, none before there are parameters. -/
def tiers (b : Book) : List Tier := (b.terms.map fun t => t.tiers.tiers).getD []

/-- The purchases whose settlement is not complete. -/
def pendingRecords (b : Book) : List PurchaseRecord :=
  b.purchases.values.filter fun r => !r.isSettled

/-- The sums of the sale. -/
def stats (b : Book) (now : Instant) : SaleStats where
  saleId := b.config?.map SaleConfig.saleId
  state := b.state now
  paused := b.paused
  finalized := b.finalized
  version := b.version
  tokensSold := (b.terms.map fun t => t.tiers.totalSold).getD .zero
  tokensRemaining := (b.terms.map fun t => t.tiers.totalRemaining).getD .zero
  unitsRaised := b.unitsRaised
  fundsRaised := b.fundsRaised
  tokensSoldByCurrency := b.tokensByCurrency
  investorCount := b.caps.investors.size
  purchaseCount := b.purchases.size
  pendingSettlements := b.pendingRecords.length
  currentTier := b.terms.bind fun t => t.tiers.currentTier?

/-! ## purchasing -/

/-- What was found out about a request outside the book. -/
structure Checked where
  investorClass : InvestorClass
  rate : Rate
  deriving DecidableEq

/-- Refuses unless the sale is open and not paused. -/
def checkOpen (b : Book) (now : Instant) : Except SaleError Unit :=
  match b.state now with
  | .opened => if b.paused then .error .salePaused else .ok ()
  | state =>
    if state = .closed ∧ b.isSoldOutBeforeEnd now then .error .soldOut
    else .error (.saleNotOpen state)

/-- What the sale decides about every purchase. -/
def policy (c : SaleConfig) : AllocationPolicy := ⟨c.minimumInvestment, c.discountCurrency⟩

/-- The planning input of a checked request. -/
def input (r : PurchaseRequest) (checked : Checked) : AllocationInput where
  investor := r.recipient
  investorClass := checked.investorClass
  currency := r.currency
  amount := r.amount
  rate := checked.rate
  minTokens := r.minTokens

/-- What a checked request would get right now. -/
def plan (b : Book) (r : PurchaseRequest) (checked : Checked) (now : Instant) :
    Except SaleError AllocationPlan := do
  b.checkOpen now
  match b.terms with
  | none => .error .notConfigured
  | some t =>
    if !t.config.accepts r.currency then .error (.unsupportedCurrency r.currency)
    else
      match checked.rate.checkFresh r.currency now t.config.rateToleranceSecs with
      | .error e => .error (.rateUnavailable e)
      | .ok () =>
        (allocate (policy t.config) (input r checked) t.tiers b.caps).mapError .ofAllocation

/-- The identity derived for the purchase of a number. -/
def derivedId (saleId : Uuid) (n : Nat) : Uuid := saleId.derive s!"purchase:{n}"

/-- The first derived identity from a number on that is not in use, and the
number after it.  `fuel` numbers are passed over at most: as many as there
are identities in use, so one is found unless two numbers share an identity. -/
def freshId? (saleId : Uuid) (inUse : Uuid → Bool) : Nat → Nat → Option (Uuid × Nat)
  | 0, n =>
    if inUse (derivedId saleId n) then none else some (derivedId saleId n, n + 1)
  | fuel + 1, n =>
    if inUse (derivedId saleId n) then freshId? saleId inUse fuel (n + 1)
    else some (derivedId saleId n, n + 1)

/-- The identity under which a request is filed, and the number to go on from.
The program searches without a bound.  The search here tries one number more
than there are identities in use, so it ends without a find only if two of the
numbers tried share their digest (`exists_freshId?`).  No run gets there unless
derived identities collide; the program would then search on, and here the
purchase is refused. -/
def purchaseIdOf (b : Book) (r : PurchaseRequest) (saleId : Uuid) :
    Except SaleError (Uuid × Nat) :=
  match r.purchaseId with
  | some id => .ok (id, b.nextSeq)
  | none =>
    match freshId? saleId b.purchases.contains b.purchases.size b.nextSeq with
    | some found => .ok found
    | none => .error (.duplicatePurchase (derivedId saleId b.nextSeq))

/-- The sum under a currency with an amount added. -/
def addTo {s : Scale} (d : Directory Currency (Quantity s)) (c : Currency) (amount : Quantity s) :
    Option (Directory Currency (Quantity s)) :=
  (((d.get? c).getD .zero).add? amount).map (d.insert c)

/-- The book with a plan recorded under an identity. -/
def recordPlan (b : Book) (r : PurchaseRequest) (checked : Checked) (now : Instant)
    (plan : AllocationPlan) : Except SaleError (PurchaseRecord × Book) :=
  match b.unitsRaised.add? plan.result.unitsConsumed with
  | none => .error (.overflow .unitsRaised)
  | some unitsRaised =>
  match addTo b.fundsRaised r.currency plan.result.fundsConsumed with
  | none => .error (.overflow .fundsRaised)
  | some fundsRaised =>
  match addTo b.tokensByCurrency r.currency plan.result.tokensAllocated with
  | none => .error (.overflow .tokensByCurrency)
  | some tokensByCurrency =>
  match b.terms with
  | none => .error .notConfigured
  | some t =>
  match commitPlan plan t.tiers b.caps with
  | .error e => .error (.ofAllocation e)
  | .ok (tiers, caps) =>
  match b.purchaseIdOf r t.config.saleId with
  | .error e => .error e
  | .ok (purchaseId, nextSeq) =>
    let record : PurchaseRecord := {
      purchaseId
      buyer := r.buyer
      beneficiary := r.recipient
      investorClass := checked.investorClass
      rate := checked.rate
      plan
      committedAt := now
      settlement := .initial }
    .ok (record, { b with
      terms := some { t with tiers }
      caps
      unitsRaised
      fundsRaised
      tokensByCurrency
      nextSeq
      purchases := b.purchases.insert purchaseId record
      version := b.version + 1 })

/-- Plans a checked request and records the plan, all of it or nothing. -/
def commitPurchase (b : Book) (r : PurchaseRequest) (checked : Checked) (now : Instant) :
    Except SaleError (PurchaseRecord × Book) :=
  match r.purchaseId.filter b.purchases.contains with
  | some id => .error (.duplicatePurchase id)
  | none =>
    match b.plan r checked now with
    | .error e => .error e
    | .ok plan => b.recordPlan r checked now plan

/-! ## administration -/

/-- A change of the parameters. -/
inductive Change where
  | configure (config : SaleConfig) (tiers : TierLedger)
  | tiers (tiers : TierLedger)
  | limits (nonAccreditedLimit minimumInvestment : Units)
  | acceptedCurrencies (accepted : CurrencySet) (discountCurrency : Option Currency)
  | times (startTime endTime : Instant)
  | limitOverride (investor : InvestorId) (limit : Units)
  | allowBeneficialInvestments (allow : Bool)

/-- The name of what changes. -/
def Change.field : Change → String
  | configure .. => "configure"
  | tiers _ => "tiers"
  | limits .. => "limits"
  | acceptedCurrencies .. => "accepted_currencies"
  | times .. => "times"
  | limitOverride .. => "limit_override"
  | allowBeneficialInvestments _ => "allow_beneficial_investments"

/-- A change that needs terms to start from. -/
def withTerms (b : Book) (f : Terms → Except SaleError Book) : Except SaleError Book :=
  match b.terms with
  | none => .error .notConfigured
  | some t => f t

/-- The book with new parameters, if those are without fault. -/
def withConfig (b : Book) (t : Terms) (c : SaleConfig) : Except SaleError Book :=
  match c.fault? with
  | some fault => .error (.invalidConfig (.parameters fault))
  | none => .ok { b with terms := some { t with config := c } }

/-- The book after a change, apart from its version. -/
def applyChange (b : Book) : Change → Except SaleError Book
  | .configure config tiers =>
    .ok { b with
      caps := b.caps.setLimit config.nonAccreditedLimit
      terms := some ⟨config, tiers⟩ }
  | .tiers tiers => b.withTerms fun t => .ok { b with terms := some { t with tiers } }
  | .limits nonAccreditedLimit minimumInvestment => b.withTerms fun t =>
    .ok { b with
      terms := some { t with config := { t.config with nonAccreditedLimit, minimumInvestment } }
      caps := b.caps.setLimit nonAccreditedLimit }
  | .acceptedCurrencies acceptedCurrencies discountCurrency => b.withTerms fun t =>
    b.withConfig t { t.config with acceptedCurrencies, discountCurrency }
  | .times startTime endTime => b.withTerms fun t =>
    b.withConfig t { t.config with startTime, endTime }
  | .limitOverride investor limit => b.withTerms fun _ =>
    .ok { b with caps := b.caps.setOverride investor limit }
  | .allowBeneficialInvestments allowBeneficialInvestments => b.withTerms fun t =>
    .ok { b with
      terms := some { t with config := { t.config with allowBeneficialInvestments } } }

/-- One change of the parameters with its version; refused once the sale has
opened. -/
def change (b : Book) (c : Change) (now : Instant) : Except SaleError (Nat × Book) :=
  let state := b.state now
  if !state.acceptsConfigChanges then .error (.configLocked state)
  else
    match b.applyChange c with
    | .error e => .error e
    | .ok b => .ok (b.version + 1, { b with version := b.version + 1 })

/-- Sets the pause flag; the new version unless the flag stood there already. -/
def setPaused (b : Book) (paused : Bool) : Except SaleError (Option Nat × Book) :=
  if b.terms.isNone then .error .notConfigured
  else if b.paused = paused then .ok (none, b)
  else .ok (some (b.version + 1), { b with paused, version := b.version + 1 })

/-! ## settlement -/

/-- How an attempt at a settlement starts. -/
inductive Attempt where
  /-- There is nothing to do now. -/
  | idle (status : SettlementStatus)
  /-- The record as it stands, and where payments go. -/
  | started (record : PurchaseRecord) (destination : String)

/-- Starts an attempt, unless the purchase is settled or an attempt is under way. -/
def beginSettlement (b : Book) (id : Uuid) : Except SaleError (Attempt × Book) :=
  match b.terms with
  | none => .error .notConfigured
  | some t =>
    match b.purchases.get? id with
    | none => .error (.unknownPurchase id)
    | some r =>
      if r.isSettled then .ok (.idle .complete, b)
      else if r.settlement.inFlight then .ok (.idle (.pending "settlement in progress"), b)
      else
        let r := { r with
          settlement := { r.settlement with
            inFlight := true, attempts := r.settlement.attempts + 1 } }
        .ok (.started r t.config.settlementDestination,
          { b with purchases := b.purchases.insert id r })

/-- Stores what an attempt has reached. -/
def endSettlement (b : Book) (id : Uuid) (progress : SettlementProgress)
    (failure : Option CollaboratorError) : Book :=
  match b.purchases.get? id with
  | none => b
  | some r =>
    let settlement := { progress with
      inFlight := false, lastError := failure.map CollaboratorError.message }
    { b with purchases := b.purchases.insert id { r with settlement } }

/-! ## finalizing -/

/-- What goes to the treasury. -/
structure Closing where
  saleId : Uuid
  treasury : InvestorId
  unsold : Tokens
  sold : Tokens

/-- Starts finalizing a closed sale. -/
def beginFinalize (b : Book) (now : Instant) : Except SaleError (Closing × Book) :=
  if b.finalized then .error .alreadyFinalized
  else
    let state := b.state now
    if state ≠ .closed then .error (.saleNotClosed state)
    else if b.finalizing then
      .error (.collaborator ⟨.tokenLedger, "finalize already in progress"⟩)
    else
      match b.terms with
      | none => .error .notConfigured
      | some t =>
        .ok (⟨t.config.saleId, t.config.treasury, t.tiers.totalRemaining, t.tiers.totalSold⟩,
          { b with finalizing := true })

/-- Ends finalizing, successfully or not. -/
def endFinalize (b : Book) (issued : Bool) : Book :=
  if issued then { b with finalizing := false, finalized := true, version := b.version + 1 }
  else { b with finalizing := false }

end Book

end TokenSale
