import TokenSale.Proofs.WrittenForms
import TokenSale.Wire.Allocation

/-!
# TokenSale.Proofs.AllocationForms

Tiers, running sums and plans come back from their documents, in whatever order
the members have come.

* `TierSpec.readAs`, `AllocationPlan.readAs`, … — what is read is what was
  written;
* `CapState.Fits`, `AllocationPlan.Fits`, … — the numbers that programs hold in
  64 bits do fit, and the times come back from their texts;
* `TierSpec.isPlain`, `AllocationPlan.isPlain`, … — what the documents are like.
-/

namespace TokenSale

open Json Directory

/-! ## names and rates -/

/-- The time comes back from its text. -/
def Instant.ReadsBack (t : Instant) : Prop := ofText? t.text = some t

theorem InvestorClass.readAs (c : InvestorClass) : ReadAs c.encode InvestorClass.decode c :=
  .of_str (by cases c <;> rfl)

/-- A rate is read back if its time is. -/
theorem Rate.readAs {r : Rate} (h : r.asOf.ReadsBack) : ReadAs r.encode Rate.decode r := by
  refine .of_fields [.required "numerator" r.numerator.readAs,
    .required "denominator" r.denominator.readAs, .required "as_of" (Instant.readAs h)] (by simp)
    fun ns hread => ?_
  simp only [List.forall_mem_cons, Field.required] at hread
  simp only [ok_bind, hread]
  rfl

theorem Rate.isPlain (r : Rate) : IsPlain 1 r.encode := by
  refine isPlain_obj (by simp) ?_
  simp only [List.forall_mem_cons]
  exact ⟨isPlain_str _, isPlain_str _, isPlain_str _, List.forall_mem_nil _⟩

/-! ## tiers -/

/-- The terms of a tier are read back, without a discount too. -/
theorem TierSpec.readAs (s : TierSpec) : ReadAs s.encode TierSpec.decode s := by
  refine .of_fields [.required "regular_price" s.regularPrice.readAs,
    .required "discount_price" s.discountPrice.readAs,
    .required "total_capacity" s.totalCapacity.readAs,
    .last (.withDefault "discount_capacity" s.discountCapacity.readAs .zero)] (by simp)
    fun ns hread => ?_
  simp only [List.forall_mem_cons, Field.required, Field.withDefault, Field.last] at hread
  simp only [ok_bind, hread]
  rfl

theorem TierSpec.isPlain (s : TierSpec) : IsPlain 2 s.encode := by
  refine isPlain_obj (by simp) ?_
  simp only [List.forall_mem_cons]
  exact ⟨s.regularPrice.isPlain, s.discountPrice.isPlain, isPlain_str _, isPlain_str _,
    List.forall_mem_nil _⟩

/-- A tier is read back with what was sold of it. -/
theorem Tier.readAs (t : Tier) : ReadAs t.encode Tier.decode t := by
  refine .of_fields [.required "spec" t.spec.readAs, .required "total_sold" t.totalSold.readAs,
    .required "discount_sold" t.discountSold.readAs] (by simp) fun ns hread => ?_
  simp only [List.forall_mem_cons, Field.required] at hread
  simp only [ok_bind, hread]
  rfl

theorem Tier.isPlain (t : Tier) : IsPlain 3 t.encode := by
  refine isPlain_obj (by simp) ?_
  simp only [List.forall_mem_cons]
  exact ⟨t.spec.isPlain, isPlain_str _, isPlain_str _, List.forall_mem_nil _⟩

/-! ## running sums -/

/-- The count that programs hold in 64 bits fits. -/
def CapState.Fits (s : CapState) : Prop := s.purchaseCount < Nat.pow 2 64

/-- What an investor has spent is read back if the count fits. -/
theorem CapState.readAs {s : CapState} (h : s.Fits) : ReadAs s.encode CapState.decode s := by
  refine .of_fields [.required "class" s.investorClass.readAs,
    .required "invested_units" s.investedUnits.readAs,
    .required "tokens_bought" s.tokensBought.readAs, .required "purchase_count" (readAs_nat64 h)]
    (by simp) fun ns hread => ?_
  simp only [List.forall_mem_cons, Field.required] at hread
  simp only [ok_bind, hread]
  rfl

theorem CapState.isPlain {s : CapState} (h : s.Fits) : IsPlain 1 s.encode := by
  refine isPlain_obj (by simp) ?_
  simp only [List.forall_mem_cons]
  exact ⟨isPlain_str _, isPlain_str _, isPlain_str _, isPlain_nat h, List.forall_mem_nil _⟩

/-! ## plans -/

theorem Currency.readAs_option (c : Option Currency) :
    ReadAs (.ofOption Currency.encode c) (decodeOption Currency.decode) c :=
  Json.readAs_option (fun c _ => c.readAs) fun _ _ => Json.noConfusion

theorem AllocationPolicy.readAs (p : AllocationPolicy) : ReadAs p.encode AllocationPolicy.decode p := by
  refine .of_fields [.required "minimum_investment" p.minimumInvestment.readAs,
    .optional "discount_currency" (Currency.readAs_option p.discountCurrency)] (by simp)
    fun ns hread => ?_
  simp only [List.forall_mem_cons, Field.required, Field.optional] at hread
  simp only [ok_bind, hread]
  rfl

theorem AllocationPolicy.isPlain (p : AllocationPolicy) : IsPlain 1 p.encode := by
  refine isPlain_obj (by simp) ?_
  simp only [List.forall_mem_cons]
  exact ⟨isPlain_str _, isPlain_option fun _ _ => isPlain_str _, List.forall_mem_nil _⟩

/-- The index that programs hold in 64 bits fits. -/
def Fill.Fits (f : Fill) : Prop := f.tierIndex < Nat.pow 2 64

/-- A fill is read back if its index fits. -/
theorem Fill.readAs {f : Fill} (h : f.Fits) : ReadAs f.encode Fill.decode f := by
  refine .of_fields [.required "tier_index" (readAs_nat64 h),
    .required "is_discount" (readAs_bool f.isDiscount), .required "tokens" f.tokens.readAs,
    .required "units" f.units.readAs, .required "price" f.price.readAs] (by simp)
    fun ns hread => ?_
  simp only [List.forall_mem_cons, Field.required] at hread
  simp only [ok_bind, hread]
  rfl

theorem Fill.isPlain {f : Fill} (h : f.Fits) : IsPlain 2 f.encode := by
  refine isPlain_obj (by simp) ?_
  simp only [List.forall_mem_cons]
  exact ⟨isPlain_nat h, isPlain_bool _, isPlain_str _, isPlain_str _, f.price.isPlain,
    List.forall_mem_nil _⟩

theorem PurchaseResult.readAs (r : PurchaseResult) : ReadAs r.encode PurchaseResult.decode r := by
  refine .of_fields [.required "tokens_allocated" r.tokensAllocated.readAs,
    .required "unit_of_account_consumed" r.unitsConsumed.readAs,
    .required "currency_amount_consumed" r.fundsConsumed.readAs,
    .required "currency_amount_refunded" r.fundsRefunded.readAs] (by simp)
    fun ns hread => ?_
  simp only [List.forall_mem_cons, Field.required] at hread
  simp only [ok_bind, hread]
  rfl

theorem PurchaseResult.isPlain (r : PurchaseResult) : IsPlain 1 r.encode := by
  refine isPlain_obj (by simp) ?_
  simp only [List.forall_mem_cons]
  exact ⟨isPlain_str _, isPlain_str _, isPlain_str _, isPlain_str _, List.forall_mem_nil _⟩

/-- The indices of a plan fit, and the time of its rate comes back. -/
structure AllocationPlan.Fits (p : AllocationPlan) : Prop where
  fills : ∀ f ∈ p.fills, f.Fits
  asOf : p.rate.asOf.ReadsBack

/-- **A plan is read back, each of its fills in its place.** -/
theorem AllocationPlan.readAs {p : AllocationPlan} (h : p.Fits) :
    ReadAs p.encode AllocationPlan.decode p := by
  have hfills := readAs_list fun f hf => Fill.readAs (h.fills f hf)
  refine .of_fields [.required "investor" p.investor.readAs,
    .required "class" p.investorClass.readAs, .required "currency" p.currency.readAs,
    .required "amount" p.amount.readAs, .required "rate" (Rate.readAs h.asOf),
    .required "requested_units" p.requestedUnits.readAs,
    .required "available_units" p.availableUnits.readAs, .required "fills" hfills,
    .required "result" p.result.readAs] (by simp) fun ns hread => ?_
  simp only [List.forall_mem_cons, Field.required] at hread
  simp only [ok_bind, hread]
  rfl

/-- A plan nests four deep: the fills, a fill, its price and the sides of that. -/
theorem AllocationPlan.isPlain {p : AllocationPlan} (h : p.Fits) : IsPlain 4 p.encode := by
  have hfills : ∀ v ∈ p.fills.map Fill.encode, IsPlain 2 v :=
    List.forall_mem_map.2 fun f hf => Fill.isPlain (h.fills f hf)
  refine isPlain_obj (by simp) ?_
  simp only [List.forall_mem_cons]
  exact ⟨isPlain_str _, isPlain_str _, isPlain_str _, isPlain_str _, p.rate.isPlain.mono (by decide),
    isPlain_str _, isPlain_str _, isPlain_arr hfills, p.result.isPlain.mono (by decide),
    List.forall_mem_nil _⟩

end TokenSale
