import TokenSale.Proofs.WrittenForms
import TokenSale.Wire.Sale

/-!
# TokenSale.Proofs.EventRecord

An event comes back from its document, in whatever order its members have come.

* `SaleEvent.Fits` — the numbers of an event that programs hold in 64 bits do
  fit;
* `SaleEvent.readAs` — the event that is read is the one written;
* `SaleEvent.isPlain` — what its document is like;
* `SaleEvent.decode_settled`, `isValue_settled`, `depth_settled_le` — the same
  of the document that a journal holds.
-/

namespace TokenSale

open Json Directory

namespace SaleEvent

/-- The numbers that programs hold in 64 bits fit. -/
def Fits : SaleEvent → Prop
  | tokenPurchase _ _ _ _ tierIndex _ _ _ _ => tierIndex < Nat.pow 2 64
  | configChanged _ version | paused version | unpaused version => version < Nat.pow 2 64
  | fundsReceived .. | refunded .. | finalized .. => True

/-- The members of the document of an event. -/
def members (e : SaleEvent) : List (String × Json) := ("type", .str e.typeName) :: e.details

theorem encode_eq (e : SaleEvent) : e.encode = .obj e.members := rfl

theorem nodup_members (e : SaleEvent) : (e.members.map Prod.fst).Nodup := by
  cases e <;> simp [members, details]

/-- The fields of the document of an event, apart from its name. -/
def fields : (e : SaleEvent) → e.Fits → List Field
  | tokenPurchase purchaseId buyer beneficiary currency _ isDiscount tokens units price, h =>
    [.required "purchase_id" purchaseId.readAs,
      .required "buyer" buyer.readAs,
      .required "beneficiary" beneficiary.readAs,
      .required "currency" currency.readAs,
      .required "tier_index" (readAs_nat64 h),
      .required "is_discount" (readAs_bool isDiscount),
      .required "tokens" tokens.readAs,
      .required "units" units.readAs, .required "price" price.readAs]
  | fundsReceived purchaseId currency amount destination, _ =>
    [.required "purchase_id" purchaseId.readAs,
      .required "currency" currency.readAs,
      .required "amount" amount.readAs,
      .required "destination" (readAs_str destination)]
  | refunded purchaseId investor currency amount, _ =>
    [.required "purchase_id" purchaseId.readAs,
      .required "investor" investor.readAs,
      .required "currency" currency.readAs,
      .required "amount" amount.readAs]
  | configChanged field _, h =>
    [.required "field" (readAs_str field), .required "version" (readAs_nat64 h)]
  | paused _, h | unpaused _, h => [.required "version" (readAs_nat64 h)]
  | finalized treasury unsoldTokens tokensSold, _ =>
    [.required "treasury" treasury.readAs,
      .required "unsold_tokens" unsoldTokens.readAs,
      .required "tokens_sold" tokensSold.readAs]

/-- The details of an event are its fields, written one after another. -/
theorem details_eq (e : SaleEvent) (h : e.Fits) : e.details = (e.fields h).map Field.member := by
  cases e <;> rfl

/-- An event is read from its document, with the members in any order. -/
theorem readAs {e : SaleEvent} (h : e.Fits) : ReadAs e.encode decode e := by
  rw [encode_eq]
  refine .of_members e.nodup_members fun ns hns => ?_
  have htype : Spells ns "type" decodeString e.typeName := hns.spells (by rfl) (readAs_str _)
  rw [decode, htype.variant, ok_bind]
  have hmembers : ∀ f ∈ e.fields h, f.member ∈ e.members := fun f hf =>
    List.mem_cons_of_mem _ (e.details_eq h ▸ List.mem_map_of_mem hf)
  have hrecord := hns.record_fields hmembers
  have hread := hns.read_fields hmembers
  -- each name has a reader of its own, which asks for these fields
  cases e <;>
  · simp only [fields, List.forall_mem_cons, Field.required] at hread
    simp only [decodeAs, typeName, String.reduceEq, if_false, if_true]
    refine (congrArg (· >>= _) hrecord).trans ?_
    simp only [ok_bind, hread]
    rfl

/-- Only the price of a fill is nested within an event. -/
theorem isPlain {e : SaleEvent} (h : e.Fits) : IsPlain 2 e.encode := by
  refine isPlain_obj e.nodup_members ?_
  cases e <;> simp only [details, List.forall_mem_cons]
  case tokenPurchase =>
    exact ⟨isPlain_str _, isPlain_str _, isPlain_str _, isPlain_str _, isPlain_str _,
      isPlain_nat h, isPlain_bool _, isPlain_str _, isPlain_str _, Price.isPlain _,
      List.forall_mem_nil _⟩
  case fundsReceived =>
    exact ⟨isPlain_str _, isPlain_str _, isPlain_str _, isPlain_str _, isPlain_str _,
      List.forall_mem_nil _⟩
  case refunded =>
    exact ⟨isPlain_str _, isPlain_str _, isPlain_str _, isPlain_str _, isPlain_str _,
      List.forall_mem_nil _⟩
  case configChanged =>
    exact ⟨isPlain_str _, isPlain_str _, isPlain_nat h, List.forall_mem_nil _⟩
  case paused => exact ⟨isPlain_str _, isPlain_nat h, List.forall_mem_nil _⟩
  case unpaused => exact ⟨isPlain_str _, isPlain_nat h, List.forall_mem_nil _⟩
  case finalized =>
    exact ⟨isPlain_str _, isPlain_str _, isPlain_str _, isPlain_str _, List.forall_mem_nil _⟩

/-- **An event comes back from its document**, once it is settled. -/
theorem decode_settled {e : SaleEvent} (h : e.Fits) : decode e.encode.settled = .ok e :=
  readAs h _ ((isPlain h).isDocument fun _ => True).alike_settled

/-- The settled document of an event is one that programs hold, without
floating-point numbers. -/
theorem isValue_settled {ok : Binary64 → Prop} {e : SaleEvent} (h : e.Fits) :
    e.encode.settled.IsValue ok := ((isPlain h).isDocument ok).isValue_settled

/-- A settled event nests no deeper than its fields. -/
theorem depth_settled_le {e : SaleEvent} (h : e.Fits) : e.encode.settled.depth ≤ 2 :=
  Nat.le_trans (Nat.le_of_eq ((isPlain h).isDocument fun _ => True).depth_settled)
    (isPlain h).depth_le

end SaleEvent

end TokenSale
