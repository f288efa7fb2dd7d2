import TokenSale.Proofs.AllocationForms
import TokenSale.Proofs.EventRecord

/-!
# TokenSale.Proofs.SaleForms

The parameters, requests, records, sums and events of a sale come back from
their documents, in whatever order the members have come, and from their texts.

* `SaleConfig.readAs`, `SaleStats.readAs`, … — what is read is what was written;
* `SaleConfig.Fits`, `SaleStats.Fits`, … — the numbers that programs hold in 32
  or 64 bits do fit, and the times come back from their texts;
* `PurchaseRecord.asRead` — a record is read with no attempt under way;
* `ComesBack` — a value is read from its document and from its texts;
* `wire_forms_come_back` — all of them do.
-/

namespace TokenSale

open Json Directory

/-! ## parameters -/

/-- The document of a set of currencies is read as the set. -/
theorem CurrencySet.readAs (s : CurrencySet) :
    ReadAs (.arr (s.keys.map Currency.encode)) CurrencySet.decode s := by
  intro w hw
  have hof : CurrencySet.of s.keys = s := by
    refine Directory.ofList_eq ?_ fun p hp => ?_
    · rw [List.map_map]
      exact .of_eq (List.map_id' _)
    · obtain ⟨c, hc, rfl⟩ := List.mem_map.1 hp
      obtain ⟨q, hq, rfl⟩ := List.mem_map.1 hc
      exact hq
  rw [CurrencySet.decode, readAs_list (fun c _ => c.readAs) w hw, Except.map, hof]

/-- The numbers that programs hold in 64 bits fit, and the times come back. -/
structure SaleConfig.Fits (c : SaleConfig) : Prop where
  startTime : c.startTime.ReadsBack
  endTime : c.endTime.ReadsBack
  tolerance_least : -(Nat.pow 2 63 : Int) ≤ c.rateToleranceSecs
  tolerance_most : c.rateToleranceSecs < Nat.pow 2 63

/-- A configuration is read back if its times and bounds fit. -/
theorem SaleConfig.readAs {c : SaleConfig} (h : c.Fits) : ReadAs c.encode SaleConfig.decode c := by
  have htolerance := readAs_int64 h.tolerance_least h.tolerance_most
  refine .of_fields [.required "sale_id" c.saleId.readAs,
    .required "start_time" (Instant.readAs h.startTime),
    .required "end_time" (Instant.readAs h.endTime),
    .required "non_accredited_limit" c.nonAccreditedLimit.readAs,
    .required "minimum_investment" c.minimumInvestment.readAs,
    .required "accepted_currencies" c.acceptedCurrencies.readAs,
    .optional "discount_currency" (Currency.readAs_option c.discountCurrency),
    .required "settlement_destination" (readAs_str c.settlementDestination),
    .required "treasury" c.treasury.readAs, .required "rate_tolerance_secs" htolerance,
    .required "allow_beneficial_investments" (readAs_bool c.allowBeneficialInvestments)]
    (by simp) fun ns hread => ?_
  simp only [List.forall_mem_cons, Field.required, Field.optional] at hread
  simp only [ok_bind, hread]
  rfl

theorem SaleConfig.isPlain {c : SaleConfig} (h : c.Fits) : IsPlain 2 c.encode := by
  have hcurrencies : ∀ v ∈ c.acceptedCurrencies.keys.map Currency.encode, IsPlain 0 v :=
    List.forall_mem_map.2 fun _ _ => isPlain_str _
  refine isPlain_obj (by simp) ?_
  simp only [List.forall_mem_cons]
  exact ⟨isPlain_str _, isPlain_str _, isPlain_str _, isPlain_str _, isPlain_str _,
    isPlain_arr hcurrencies, isPlain_option fun _ _ => isPlain_str _, isPlain_str _, isPlain_str _,
    isPlain_int h.tolerance_least h.tolerance_most, isPlain_bool _, List.forall_mem_nil _⟩

theorem SaleState.readAs (s : SaleState) : ReadAs s.encode SaleState.decode s :=
  .of_str (by cases s <;> rfl)

/-! ## purchases -/

theorem Uuid.readAs_option (u : Option Uuid) :
    ReadAs (.ofOption Uuid.encode u) (decodeOption Uuid.decode) u :=
  Json.readAs_option (fun u _ => u.readAs) fun _ _ => Json.noConfusion

theorem InvestorId.readAs_option (i : Option InvestorId) :
    ReadAs (.ofOption InvestorId.encode i) (decodeOption InvestorId.decode) i :=
  Json.readAs_option (fun i _ => i.readAs) fun _ _ => Json.noConfusion

theorem Quantity.readAs_option {s : Scale} (a : Option (Quantity s)) :
    ReadAs (.ofOption Quantity.encode a) (decodeOption Quantity.decode) a :=
  Json.readAs_option (fun a _ => a.readAs) fun _ _ => Json.noConfusion

/-- **A request is read back, whichever of its options are given.** -/
theorem PurchaseRequest.readAs (r : PurchaseRequest) : ReadAs r.encode PurchaseRequest.decode r := by
  refine .of_fields [.last (.optional "purchase_id" (Uuid.readAs_option r.purchaseId)),
    .required "buyer" r.buyer.readAs,
    .last (.optional "beneficiary" (InvestorId.readAs_option r.beneficiary)),
    .required "currency" r.currency.readAs, .required "amount" r.amount.readAs,
    .last (.optional "min_tokens" (Quantity.readAs_option r.minTokens))] (by simp)
    fun ns hread => ?_
  simp only [List.forall_mem_cons, Field.required, Field.optional, Field.last] at hread
  simp only [ok_bind, PurchaseRequest.ofMembers, hread]
  rfl

theorem PurchaseRequest.isPlain (r : PurchaseRequest) : IsPlain 1 r.encode := by
  refine isPlain_obj (by simp) ?_
  simp only [List.forall_mem_cons]
  exact ⟨isPlain_option fun _ _ => isPlain_str _, isPlain_str _,
    isPlain_option fun _ _ => isPlain_str _, isPlain_str _, isPlain_str _,
    isPlain_option fun _ _ => isPlain_str _, List.forall_mem_nil _⟩

/-- The counts that programs hold in 64 and in 32 bits fit. -/
structure SettlementProgress.Fits (p : SettlementProgress) : Prop where
  fillsRecorded : p.fillsRecorded < Nat.pow 2 64
  attempts : p.attempts < Nat.pow 2 32

/-- The progress that is read: no attempt is under way. -/
def SettlementProgress.asRead (p : SettlementProgress) : SettlementProgress :=
  { p with inFlight := false }

/-- Progress is read back without the mark of an attempt under way. -/
theorem SettlementProgress.readAs {p : SettlementProgress} (h : p.Fits) :
    ReadAs p.encode SettlementProgress.decode p.asRead := by
  have hlastError : ReadAs (.ofOption .str p.lastError) (decodeOption decodeString) p.lastError :=
    readAs_option (fun s _ => readAs_str s) fun _ _ => Json.noConfusion
  refine .of_fields [.required "fills_recorded" (readAs_nat64 h.fillsRecorded),
    .required "issued" (readAs_bool p.issued), .required "forwarded" (readAs_bool p.forwarded),
    .required "funds_recorded" (readAs_bool p.fundsRecorded),
    .required "refunded" (readAs_bool p.refunded),
    .required "refund_recorded" (readAs_bool p.refundRecorded),
    .required "attempts" (readAs_nat32 h.attempts), .optional "last_error" hlastError] (by simp)
    fun ns hread => ?_
  simp only [List.forall_mem_cons, Field.required, Field.optional] at hread
  simp only [ok_bind, hread]
  rfl

theorem SettlementProgress.isPlain {p : SettlementProgress} (h : p.Fits) : IsPlain 1 p.encode := by
  refine isPlain_obj (by simp) ?_
  simp only [List.forall_mem_cons]
  exact ⟨isPlain_nat h.fillsRecorded, isPlain_bool _, isPlain_bool _, isPlain_bool _,
    isPlain_bool _, isPlain_bool _, isPlain_nat (Nat.lt_trans h.attempts (by decide)),
    isPlain_option fun _ _ => isPlain_str _, List.forall_mem_nil _⟩

theorem SettlementStatus.readAs (s : SettlementStatus) :
    ReadAs s.encode SettlementStatus.decode s := by
  cases s with
  | complete =>
      refine .of_members (by simp) fun ns hns => ?_
      have hstatus : Spells ns "status" decodeString "complete" :=
        hns.spells (by simp [find]) (readAs_str _)
      rw [SettlementStatus.decode, hstatus.variant, ok_bind]
      simp only [if_true]
      rw [record_reordered hns (List.forall_mem_nil _)]
      rfl
  | pending reason =>
      refine .of_members (by simp) fun ns hns => ?_
      have hstatus : Spells ns "status" decodeString "pending" :=
        hns.spells (by simp [find]) (readAs_str _)
      have hreason : Spells ns "reason" decodeString reason :=
        hns.spells (by simp [find]) (readAs_str _)
      rw [SettlementStatus.decode, hstatus.variant, ok_bind]
      simp only [String.reduceEq, if_false, if_true]
      rw [record_reordered hns]
      · simp only [ok_bind, hreason.required]
        rfl
      · simp only [List.forall_mem_cons]
        exact ⟨hreason.probe, List.forall_mem_nil _⟩

theorem SettlementStatus.isPlain (s : SettlementStatus) : IsPlain 1 s.encode := by
  cases s <;> refine isPlain_obj (by simp) ?_ <;> simp only [List.forall_mem_cons]
  case complete => exact ⟨isPlain_str _, List.forall_mem_nil _⟩
  case pending => exact ⟨isPlain_str _, isPlain_str _, List.forall_mem_nil _⟩

/-- A receipt is read back if its plan fits. -/
theorem PurchaseReceipt.readAs {r : PurchaseReceipt} (h : r.plan.Fits) :
    ReadAs r.encode PurchaseReceipt.decode r := by
  refine .of_fields [.required "purchase_id" r.purchaseId.readAs,
    .required "plan" (AllocationPlan.readAs h), .required "settlement" r.settlement.readAs]
    (by simp) fun ns hread => ?_
  simp only [List.forall_mem_cons, Field.required] at hread
  simp only [ok_bind, hread]
  rfl

/-- A receipt nests one deeper than its plan. -/
theorem PurchaseReceipt.isPlain {r : PurchaseReceipt} (h : r.plan.Fits) : IsPlain 5 r.encode := by
  refine isPlain_obj (by simp) ?_
  simp only [List.forall_mem_cons]
  exact ⟨isPlain_str _, AllocationPlan.isPlain h, r.settlement.isPlain.mono (by decide),
    List.forall_mem_nil _⟩

/-- The numbers of a record fit, and its times come back. -/
structure PurchaseRecord.Fits (r : PurchaseRecord) : Prop where
  asOf : r.rate.asOf.ReadsBack
  plan : r.plan.Fits
  committedAt : r.committedAt.ReadsBack
  settlement : r.settlement.Fits

/-- The record that is read: no attempt is under way. -/
def PurchaseRecord.asRead (r : PurchaseRecord) : PurchaseRecord :=
  { r with settlement := r.settlement.asRead }

/-- **A record is read back, but for the mark of an attempt under way.** -/
theorem PurchaseRecord.readAs {r : PurchaseRecord} (h : r.Fits) :
    ReadAs r.encode PurchaseRecord.decode r.asRead := by
  refine .of_fields [.required "purchase_id" r.purchaseId.readAs,
    .required "buyer" r.buyer.readAs, .required "beneficiary" r.beneficiary.readAs,
    .required "class" r.investorClass.readAs, .required "rate" (Rate.readAs h.asOf),
    .required "plan" (AllocationPlan.readAs h.plan),
    .required "committed_at" (Instant.readAs h.committedAt),
    .required "settlement" (SettlementProgress.readAs h.settlement)] (by simp)
    fun ns hread => ?_
  simp only [List.forall_mem_cons, Field.required] at hread
  simp only [ok_bind, hread]
  rfl

theorem PurchaseRecord.isPlain {r : PurchaseRecord} (h : r.Fits) : IsPlain 5 r.encode := by
  refine isPlain_obj (by simp) ?_
  simp only [List.forall_mem_cons]
  exact ⟨isPlain_str _, isPlain_str _, isPlain_str _, isPlain_str _, r.rate.isPlain.mono (by decide),
    AllocationPlan.isPlain h.plan, isPlain_str _,
    (SettlementProgress.isPlain h.settlement).mono (by decide), List.forall_mem_nil _⟩

/-! ## sums -/

/-- Amounts by currency are read back as the directory that they were. -/
theorem readAs_byCurrency {s : Scale} (amounts : Directory Currency (Quantity s)) :
    ReadAs (encodeByCurrency amounts) decodeByCurrency amounts :=
  readAs_directory Currency.ofText_code Quantity.readAs

theorem isPlain_byCurrency {s : Scale} (amounts : Directory Currency (Quantity s)) :
    IsPlain 1 (encodeByCurrency amounts) := by
  have hcodes : (amounts.keys.map Currency.code).Nodup :=
    List.Pairwise.map Currency.code (fun _ _ hne heq => hne (Currency.ext heq))
      (nodup_of_pairwise amounts.ordered)
  refine isPlain_obj ?_ (List.forall_mem_map.2 fun _ _ => isPlain_str _)
  rw [Directory.keys, List.map_map] at hcodes
  rw [List.map_map]
  exact hcodes

/-- The counts that programs hold in 64 bits fit. -/
structure SaleStats.Fits (s : SaleStats) : Prop where
  version : s.version < Nat.pow 2 64
  investorCount : s.investorCount < Nat.pow 2 64
  purchaseCount : s.purchaseCount < Nat.pow 2 64
  pendingSettlements : s.pendingSettlements < Nat.pow 2 64
  currentTier : ∀ i ∈ s.currentTier, i < Nat.pow 2 64

/-- The sums of a sale are read back if its counts fit. -/
theorem SaleStats.readAs {s : SaleStats} (h : s.Fits) : ReadAs s.encode SaleStats.decode s := by
  have hcurrentTier : ReadAs (.ofOption .nat s.currentTier) (decodeOption decodeNat64) s.currentTier :=
    readAs_option (fun i hi => readAs_nat64 (h.currentTier i hi)) fun _ _ => Json.noConfusion
  refine .of_fields [.optional "sale_id" (Uuid.readAs_option s.saleId),
    .required "state" s.state.readAs, .required "paused" (readAs_bool s.paused),
    .required "finalized" (readAs_bool s.finalized), .required "version" (readAs_nat64 h.version),
    .required "tokens_sold" s.tokensSold.readAs,
    .required "tokens_remaining" s.tokensRemaining.readAs,
    .required "units_raised" s.unitsRaised.readAs,
    .required "funds_raised" (readAs_byCurrency s.fundsRaised),
    .required "tokens_sold_by_currency" (readAs_byCurrency s.tokensSoldByCurrency),
    .required "investor_count" (readAs_nat64 h.investorCount),
    .required "purchase_count" (readAs_nat64 h.purchaseCount),
    .required "pending_settlements" (readAs_nat64 h.pendingSettlements),
    .optional "current_tier" hcurrentTier] (by simp) fun ns hread => ?_
  simp only [List.forall_mem_cons, Field.required, Field.optional] at hread
  simp only [ok_bind, hread]
  rfl

theorem SaleStats.isPlain {s : SaleStats} (h : s.Fits) : IsPlain 2 s.encode := by
  refine isPlain_obj (by simp) ?_
  simp only [List.forall_mem_cons]
  exact ⟨isPlain_option fun _ _ => isPlain_str _, isPlain_str _, isPlain_bool _, isPlain_bool _,
    isPlain_nat h.version, isPlain_str _, isPlain_str _, isPlain_str _, isPlain_byCurrency _,
    isPlain_byCurrency _, isPlain_nat h.investorCount, isPlain_nat h.purchaseCount,
    isPlain_nat h.pendingSettlements, isPlain_option fun i hi => isPlain_nat (h.currentTier i hi),
    List.forall_mem_nil _⟩

/-! ## texts -/

/-- A value is read from its document, whatever order the members have come in,
and from its texts: the compact one, with members as they stand or settled, and
the canonical one. -/
structure ComesBack {α : Type} (v : Json) (d : Decoder α) (a : α) : Prop where
  document : ReadAs v d a
  compact : (ofText? v.compact).map d = some (.ok a)
  parsed : (parse? v.compact).map d = some (.ok a)
  canonical : (ofText? v.canonical).map d = some (.ok a)

/-- What is read from a document is read from its texts. -/
theorem Json.ReadAs.comesBack {α : Type} {v : Json} {d : Decoder α} {a : α} {n : Nat}
    (hread : ReadAs v d a) (hplain : v.IsPlain n) (hn : n ≤ maxDepth) : ComesBack v d a := by
  have hv : v.IsDocument Binary64.ReadsBack := hplain.isDocument _
  have hdepth : v.depth ≤ maxDepth := Nat.le_trans hplain.depth_le hn
  have hself : Alike v v := hv.alike_settled.trans hv.alike_settled.symm
  have htext : ofText? v.compact = some v := by
    rw [ofText?, Json.compact, String.toList_ofList, ofChars?_write hv hdepth]
  have hsettled : ofText? v.canonical = some v.settled := by
    rw [ofText?, Json.canonical, Json.compact, String.toList_ofList,
      ofChars?_write hv.isValue_settled.isDocument (by rwa [hv.depth_settled])]
  constructor
  case document => exact hread
  case compact => rw [htext, Option.map_some, hread v hself]
  case parsed => rw [parse?, htext, Option.map_some, Option.map_some, hread _ hv.alike_settled]
  case canonical => rw [hsettled, Option.map_some, hread _ hv.alike_settled]

/-- **The values that are passed on come back.** Whatever amounts and texts they
hold, values are read from the documents that are written for them; only
whether a settlement is under way is not told.  Counts must fit into the
numbers of the programs, and times must come back from their own texts. -/
theorem wire_forms_come_back :
    (∀ code, Currency.normalize (Currency.normalize code) = Currency.normalize code) ∧
      (∀ (s : Scale) (a : Quantity s), ComesBack a.encode Quantity.decode a) ∧
      (∀ c : Currency, ComesBack c.encode Currency.decode c) ∧
      (∀ s : TierSpec, ComesBack s.encode TierSpec.decode s) ∧
      (∀ t : Tier, ComesBack t.encode Tier.decode t) ∧
      (∀ p : AllocationPolicy, ComesBack p.encode AllocationPolicy.decode p) ∧
      (∀ p : AllocationPlan, p.Fits → ComesBack p.encode AllocationPlan.decode p) ∧
      (∀ s : CapState, s.Fits → ComesBack s.encode CapState.decode s) ∧
      (∀ c : SaleConfig, c.Fits → ComesBack c.encode SaleConfig.decode c) ∧
      (∀ r : PurchaseRequest, ComesBack r.encode PurchaseRequest.decode r) ∧
      (∀ r : PurchaseReceipt, r.plan.Fits → ComesBack r.encode PurchaseReceipt.decode r) ∧
      (∀ e : SaleEvent, e.Fits → ComesBack e.encode SaleEvent.decode e) ∧
      (∀ s : SaleStats, s.Fits → ComesBack s.encode SaleStats.decode s) ∧
      ∀ r : PurchaseRecord, r.Fits → ComesBack r.encode PurchaseRecord.decode
        { r with settlement := { r.settlement with inFlight := false } } := by
  refine ⟨Currency.normalize_normalize, ?_, ?_, ?_, ?_, ?_, ?_, ?_, ?_, ?_, ?_, ?_, ?_, ?_⟩
  · exact fun _ a => a.readAs.comesBack (isPlain_str (n := 0) _) (by decide)
  · exact fun c => c.readAs.comesBack (isPlain_str (n := 0) _) (by decide)
  · exact fun s => s.readAs.comesBack s.isPlain (by decide)
  · exact fun t => t.readAs.comesBack t.isPlain (by decide)
  · exact fun p => p.readAs.comesBack p.isPlain (by decide)
  · exact fun _ h => (AllocationPlan.readAs h).comesBack (AllocationPlan.isPlain h) (by decide)
  · exact fun _ h => (CapState.readAs h).comesBack (CapState.isPlain h) (by decide)
  · exact fun _ h => (SaleConfig.readAs h).comesBack (SaleConfig.isPlain h) (by decide)
  · exact fun r => r.readAs.comesBack r.isPlain (by decide)
  · exact fun _ h => (PurchaseReceipt.readAs h).comesBack (PurchaseReceipt.isPlain h) (by decide)
  · exact fun _ h => (SaleEvent.readAs h).comesBack (SaleEvent.isPlain h) (by decide)
  · exact fun _ h => (SaleStats.readAs h).comesBack (SaleStats.isPlain h) (by decide)
  · exact fun _ h => (PurchaseRecord.readAs h).comesBack (PurchaseRecord.isPlain h) (by decide)

/-- A purchase of more tokens than 64 bits count, with an attempt under way. -/
def Sample.underWay : PurchaseRecord where
  purchaseId := default
  buyer := ⟨"alice"⟩
  beneficiary := ⟨"bob \" \n"⟩
  investorClass := .accredited
  rate := ⟨.one, .one, default⟩
  plan := {
    investor := ⟨"bob \" \n"⟩
    investorClass := .accredited
    currency := .ofText " usd "
    amount := ⟨2 ^ 100, by decide⟩
    rate := ⟨.one, .one, default⟩
    requestedUnits := ⟨2 ^ 100, by decide⟩
    availableUnits := ⟨2 ^ 100, by decide⟩
    fills := [⟨0, true, ⟨2 ^ 100, by decide⟩, ⟨2 ^ 100, by decide⟩, ⟨.one, .one⟩⟩]
    result := ⟨⟨2 ^ 100, by decide⟩, ⟨2 ^ 100, by decide⟩, ⟨2 ^ 100, by decide⟩, .zero⟩ }
  committedAt := default
  settlement := { SettlementProgress.initial with attempts := 1, inFlight := true }

/-- It comes back, with no attempt under way. -/
theorem wire_forms_come_back_under_way :
    ComesBack Sample.underWay.encode PurchaseRecord.decode
      { Sample.underWay with
        settlement := { SettlementProgress.initial with attempts := 1, inFlight := false } } := by
  have htime : Instant.ReadsBack default :=
    Instant.IsReading.ofText?_text ⟨by decide +kernel, by decide +kernel, by decide +kernel⟩
  exact wire_forms_come_back.2.2.2.2.2.2.2.2.2.2.2.2.2 Sample.underWay
    ⟨htime, ⟨by simp [Sample.underWay, Fill.Fits], htime⟩, htime, ⟨by decide, by decide⟩⟩

end TokenSale
