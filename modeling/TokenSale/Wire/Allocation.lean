import TokenSale.Allocation.Basic
import TokenSale.Wire.Values

/-!
# TokenSale.Wire.Allocation

The JSON forms of tiers, running sums and plans.
-/

namespace TokenSale

open Json

/-! ## tiers -/

/-- The shape of a tier. -/
def TierSpec.encode (s : TierSpec) : Json :=
  .obj [("regular_price", s.regularPrice.encode), ("discount_price", s.discountPrice.encode),
    ("total_capacity", s.totalCapacity.encode), ("discount_capacity", s.discountCapacity.encode)]

/-- The shape of a tier; without a discount capacity there is none. -/
def TierSpec.decode : Decoder TierSpec := fun v => do
  let r ← record [known "regular_price" Price.decode, known "discount_price" Price.decode,
    known "total_capacity" (Quantity.decode (s := .tokens)),
    knownLast "discount_capacity" (Quantity.decode (s := .tokens))] v
  pure {
    regularPrice := ← required r "regular_price" Price.decode
    discountPrice := ← required r "discount_price" Price.decode
    totalCapacity := ← required r "total_capacity" Quantity.decode
    discountCapacity := ← withDefault r "discount_capacity" Quantity.decode .zero }

/-- A tier with its sums. -/
def Tier.encode (t : Tier) : Json :=
  .obj [("spec", t.spec.encode), ("total_sold", t.totalSold.encode),
    ("discount_sold", t.discountSold.encode)]

/-- A tier with its sums. -/
def Tier.decode : Decoder Tier := fun v => do
  let r ← record [known "spec" TierSpec.decode,
    known "total_sold" (Quantity.decode (s := .tokens)),
    known "discount_sold" (Quantity.decode (s := .tokens))] v
  pure ⟨← required r "spec" TierSpec.decode, ← required r "total_sold" Quantity.decode,
    ← required r "discount_sold" Quantity.decode⟩

/-! ## running sums -/

/-- The running sums of an investor. -/
def CapState.encode (s : CapState) : Json :=
  .obj [("class", s.investorClass.encode), ("invested_units", s.investedUnits.encode),
    ("tokens_bought", s.tokensBought.encode), ("purchase_count", .nat s.purchaseCount)]

/-- The running sums of an investor. -/
def CapState.decode : Decoder CapState := fun v => do
  let r ← record [known "class" InvestorClass.decode,
    known "invested_units" (Quantity.decode (s := .units)),
    known "tokens_bought" (Quantity.decode (s := .tokens)),
    known "purchase_count" decodeNat64] v
  pure ⟨← required r "class" InvestorClass.decode, ← required r "invested_units" Quantity.decode,
    ← required r "tokens_bought" Quantity.decode, ← required r "purchase_count" decodeNat64⟩

/-! ## plans -/

/-- The policy of a sale. -/
def AllocationPolicy.encode (p : AllocationPolicy) : Json :=
  .obj [("minimum_investment", p.minimumInvestment.encode),
    ("discount_currency", .ofOption Currency.encode p.discountCurrency)]

/-- The policy of a sale. -/
def AllocationPolicy.decode : Decoder AllocationPolicy := fun v => do
  let r ← record [known "minimum_investment" (Quantity.decode (s := .units)),
    known "discount_currency" (decodeOption Currency.decode)] v
  pure ⟨← required r "minimum_investment" Quantity.decode,
    ← optional r "discount_currency" Currency.decode⟩

/-- One fill. -/
def Fill.encode (f : Fill) : Json :=
  .obj [("tier_index", .nat f.tierIndex), ("is_discount", .bool f.isDiscount),
    ("tokens", f.tokens.encode), ("units", f.units.encode), ("price", f.price.encode)]

/-- One fill. -/
def Fill.decode : Decoder Fill := fun v => do
  let r ← record [known "tier_index" decodeNat64, known "is_discount" decodeBool,
    known "tokens" (Quantity.decode (s := .tokens)),
    known "units" (Quantity.decode (s := .units)), known "price" Price.decode] v
  pure ⟨← required r "tier_index" decodeNat64, ← required r "is_discount" decodeBool,
    ← required r "tokens" Quantity.decode, ← required r "units" Quantity.decode,
    ← required r "price" Price.decode⟩

/-- The sums of a plan. -/
def PurchaseResult.encode (r : PurchaseResult) : Json :=
  .obj [("tokens_allocated", r.tokensAllocated.encode),
    ("unit_of_account_consumed", r.unitsConsumed.encode),
    ("currency_amount_consumed", r.fundsConsumed.encode),
    ("currency_amount_refunded", r.fundsRefunded.encode)]

/-- The sums of a plan. -/
def PurchaseResult.decode : Decoder PurchaseResult := fun v => do
  let r ← record [known "tokens_allocated" (Quantity.decode (s := .tokens)),
    known "unit_of_account_consumed" (Quantity.decode (s := .units)),
    known "currency_amount_consumed" (Quantity.decode (s := .funds)),
    known "currency_amount_refunded" (Quantity.decode (s := .funds))] v
  pure ⟨← required r "tokens_allocated" Quantity.decode,
    ← required r "unit_of_account_consumed" Quantity.decode,
    ← required r "currency_amount_consumed" Quantity.decode,
    ← required r "currency_amount_refunded" Quantity.decode⟩

/-- A plan. -/
def AllocationPlan.encode (p : AllocationPlan) : Json :=
  .obj [("investor", p.investor.encode), ("class", p.investorClass.encode),
    ("currency", p.currency.encode), ("amount", p.amount.encode), ("rate", p.rate.encode),
    ("requested_units", p.requestedUnits.encode), ("available_units", p.availableUnits.encode),
    ("fills", .arr (p.fills.map Fill.encode)), ("result", p.result.encode)]

/-- A plan. -/
def AllocationPlan.decode : Decoder AllocationPlan := fun v => do
  let r ← record [known "investor" InvestorId.decode, known "class" InvestorClass.decode,
    known "currency" Currency.decode, known "amount" (Quantity.decode (s := .funds)),
    known "rate" Rate.decode, known "requested_units" (Quantity.decode (s := .units)),
    known "available_units" (Quantity.decode (s := .units)),
    known "fills" (decodeList Fill.decode), known "result" PurchaseResult.decode] v
  pure {
    investor := ← required r "investor" InvestorId.decode
    investorClass := ← required r "class" InvestorClass.decode
    currency := ← required r "currency" Currency.decode
    amount := ← required r "amount" Quantity.decode
    rate := ← required r "rate" Rate.decode
    requestedUnits := ← required r "requested_units" Quantity.decode
    availableUnits := ← required r "available_units" Quantity.decode
    fills := ← required r "fills" (decodeList Fill.decode)
    result := ← required r "result" PurchaseResult.decode }

end TokenSale
