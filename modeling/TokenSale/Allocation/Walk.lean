import TokenSale.Allocation.Basic

/-!
# TokenSale.Allocation.Walk

The planning of a purchase.  The payment is turned into units of account,
bounded by what the investor may still spend, and spent tier by tier in
order: first on the discounted part of a tier if the currency is eligible,
then on the rest of it.  A part that the budget cannot buy whole is split, and
the walk ends there.  What the plan consumes is turned back into the currency;
the rest of the payment is refunded.
-/

namespace TokenSale

/-- What a budget buys of one part of a tier. -/
structure Take where
  tokens : Tokens
  cost : Units
  /-- The budget did not buy the whole part. -/
  split : Bool
  deriving DecidableEq

/-- Buys as much of `capacity` as the budget allows at a price. -/
def Take.of (budget : Units) (capacity : Tokens) (price : Price) :
    Except AllocationError Take :=
  match price.costOf capacity with
  | none => .error (.overflow .tierCost)
  | some full =>
    if full ≤ budget then .ok ⟨capacity, full, false⟩
    else
      match price.tokensFor budget with
      | none => .error (.overflow .tierSplit)
      | some tokens =>
        match price.costOf tokens with
        | none => .error (.overflow .tierSplitCost)
        | some cost => .ok ⟨tokens, cost, true⟩

/-- A walk under way: what is left to spend, and the fills so far in order. -/
structure Basket where
  budget : Units
  fills : List Fill
  deriving DecidableEq

namespace Basket

/-- The basket after a take; a take of no tokens leaves no fill. -/
def put (b : Basket) (index : Nat) (discount : Bool) (price : Price) (t : Take) : Basket where
  budget := b.budget.subClamped t.cost
  fills :=
    if t.tokens.isZero then b.fills
    else b.fills ++ [⟨index, discount, t.tokens, t.cost, price⟩]

end Basket

/-- What the rest of a tier adds to a basket, and whether the walk ends there. -/
def walkRest (index : Nat) (price : Price) (left : Tokens) (b : Basket) :
    Except AllocationError (Basket × Bool) :=
  if b.budget.isZero then .ok (b, true)
  else if left.isZero then .ok (b, false)
  else (Take.of b.budget left price).map fun x => (b.put index false price x, x.split)

/-- What one tier adds to a basket, and whether the walk ends there.  The
rest of the tier is offered after its discounted part. -/
def walkTier (eligible : Bool) (index : Nat) (t : Tier) (b : Basket) :
    Except AllocationError (Basket × Bool) :=
  if eligible && !t.remainingDiscount.isZero then
    match Take.of b.budget t.remainingDiscount t.spec.discountPrice with
    | .error e => .error e
    | .ok x =>
      let b := b.put index true t.spec.discountPrice x
      if x.split then .ok (b, true)
      else walkRest index t.spec.regularPrice (t.remaining.subClamped x.tokens) b
  else walkRest index t.spec.regularPrice t.remaining b

/-- Walks the tiers from `index` on, as long as there is something to spend. -/
def walk (eligible : Bool) : Nat → List Tier → Basket → Except AllocationError Basket
  | _, [], b => .ok b
  | index, t :: rest, b =>
    if b.budget.isZero then .ok b
    else if t.remaining.isZero then walk eligible (index + 1) rest b
    else
      match walkTier eligible index t b with
      | .error e => .error e
      | .ok (b, true) => .ok b
      | .ok (b, false) => walk eligible (index + 1) rest b

/-- The sums of a list of fills. -/
def fillTotals (fills : List Fill) : Except AllocationError (Tokens × Units) :=
  fills.foldlM (fun (tokens, units) f =>
    match tokens.add? f.tokens with
    | none => .error (.overflow .tokenTotal)
    | some tokens =>
      match units.add? f.units with
      | none => .error (.overflow .unitTotal)
      | some units => .ok (tokens, units)) (.zero, .zero)

/-- The units that may be spent out of those requested. -/
def spendable (caps : CapTracker) (input : AllocationInput) (requested : Units) :
    Except AllocationError Units :=
  match caps.headroom input.investor input.investorClass with
  | .ok none => .ok requested
  | .ok (some room) => .ok (requested.least room)
  | .error (.capExceeded investor limit invested _) =>
    .error (.capExceeded investor limit invested)
  | .error (.overflow _) => .error (.overflow .capHeadroom)

/-- The plan that a walk amounts to. -/
def planOf (input : AllocationInput) (requested available : Units) (fills : List Fill) :
    Except AllocationError AllocationPlan :=
  match fillTotals fills with
  | .error e => .error e
  | .ok (tokens, units) =>
    if tokens.isZero then .error (.zeroAllocation available)
    else
      match input.minTokens.filter fun least => tokens < least with
      | some least => .error (.slippageExceeded least tokens)
      | none =>
        match input.rate.toFunds units with
        | none => .error (.overflow .unitsToFunds)
        | some worth =>
          let consumed := worth.least input.amount
          .ok {
            investor := input.investor
            investorClass := input.investorClass
            currency := input.currency
            amount := input.amount
            rate := input.rate
            requestedUnits := requested
            availableUnits := available
            fills
            result := ⟨tokens, units, consumed, input.amount.subClamped consumed⟩ }

/-- Plans a purchase against tiers and running sums, without changing them. -/
def allocate (policy : AllocationPolicy) (input : AllocationInput) (tiers : TierLedger)
    (caps : CapTracker) : Except AllocationError AllocationPlan :=
  if input.amount.isZero then .error .invalidAmount
  else if !input.rate.isUsable then .error (.rateUnavailable input.currency)
  else
    match input.rate.toUnits input.amount with
    | none => .error (.overflow .fundsToUnits)
    | some requested =>
      if !caps.hasInvested input.investor && requested < policy.minimumInvestment then
        .error (.belowMinimum requested policy.minimumInvestment)
      else if tiers.isSoldOut then .error .soldOut
      else
        match spendable caps input requested with
        | .error e => .error e
        | .ok available =>
          let eligible := policy.isDiscountEligible input.currency
          match walk eligible 0 tiers.tiers ⟨available, []⟩ with
          | .error e => .error e
          | .ok basket => planOf input requested available basket.fills

end TokenSale
