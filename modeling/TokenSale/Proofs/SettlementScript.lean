import TokenSale.Proofs.Reconciliation
import TokenSale.Proofs.SettlementAccount

/-!
# TokenSale.Proofs.SettlementScript

Every purchase is settled by the same calls in the same order, each of them
once, however often the attempts fail in between.

* `PurchaseRecord.settlementCalls` — the calls, spelled out;
* `PurchaseRecord.FollowsScript` — how far they have come, and that the record
  tells it;
* `Run.pays_destination` — while the clock does not go back, payments go where
  the sale says;
* `settlement_follows_script` — the calls accepted on behalf of a purchase are
  the beginning of these, and one more attempt completes them.
-/

namespace TokenSale

/-! ## the calls -/

namespace PurchaseRecord

/-- The calls that settle a purchase: an event for every fill, the tokens, the
payment and its event, and the refund and its event if something goes back.  The
payment is passed on to `destination`, and told to have gone to `told`. -/
def settlementCalls (r : PurchaseRecord) (destination told : String) : List Effect :=
  (r.plan.fills.map fun f => .emit (r.fillEvent f)) ++
  [.issue r.purchaseId r.beneficiary r.plan.result.tokensAllocated,
    .forward r.purchaseId r.plan.currency r.plan.result.fundsConsumed destination,
    .emit (.fundsReceived r.purchaseId r.plan.currency r.plan.result.fundsConsumed told)] ++
  if r.plan.result.fundsRefunded.val = 0 then [] else
    [.refund r.purchaseId r.plan.currency r.plan.result.fundsRefunded r.buyer,
      .emit (.refunded r.purchaseId r.buyer r.plan.currency r.plan.result.fundsRefunded)]

variable {r : PurchaseRecord} {steps landed : List SettlementStep} {calls : List Effect}

theorem hasRefund_eq_false_iff : r.hasRefund = false ↔ r.plan.result.fundsRefunded.val = 0 := by
  rw [hasRefund, Bool.not_eq_false', Quantity.isZero_iff]

theorem hasRefund_eq_true_iff : r.hasRefund = true ↔ r.plan.result.fundsRefunded.val ≠ 0 := by
  rw [← Bool.not_eq_false, Ne, hasRefund_eq_false_iff]

/-- There is one call for each step of the script. -/
theorem length_settlementCalls (r : PurchaseRecord) (destination told : String) :
    (r.settlementCalls destination told).length = r.script.length := by
  by_cases hz : r.plan.result.fundsRefunded.val = 0
  · simp [settlementCalls, script, hz, hasRefund_eq_false_iff.2 hz]
  · simp [settlementCalls, script, hz, hasRefund_eq_true_iff.2 hz]

/-- The fills are told first. -/
theorem calls_of_fills {fills : List Fill}
    (h : List.Forall₂ r.Performs (fills.map .recordFill ++ steps) calls) :
    ∃ rest, List.Forall₂ r.Performs steps rest ∧
      calls = (fills.map fun f => .emit (r.fillEvent f)) ++ rest := by
  induction fills generalizing calls with
  | nil => exact ⟨calls, h, rfl⟩
  | cons f fills ih =>
      obtain ⟨_, calls, rfl, hfills, rfl⟩ := List.forall₂_cons_left_iff.1 h
      obtain ⟨rest, hrest, rfl⟩ := ih hfills
      exact ⟨rest, hrest, rfl⟩

/-- Calls by which the whole script lands are these. -/
theorem settlementCalls_of_performs (h : List.Forall₂ r.Performs r.script calls) :
    ∃ destination told, calls = r.settlementCalls destination told := by
  rw [script, List.append_assoc] at h
  obtain ⟨_, hissue, rfl⟩ := calls_of_fills h
  obtain ⟨_, _, rfl, hforward, rfl⟩ := List.forall₂_cons_left_iff.1 hissue
  obtain ⟨_, _, ⟨destination, rfl⟩, hfunds, rfl⟩ := List.forall₂_cons_left_iff.1 hforward
  obtain ⟨_, rest, ⟨told, rfl⟩, hrefund, rfl⟩ := List.forall₂_cons_left_iff.1 hfunds
  refine ⟨destination, told, ?_⟩
  rw [settlementCalls, List.append_assoc]
  by_cases hz : r.plan.result.fundsRefunded.val = 0
  · rw [hasRefund_eq_false_iff.2 hz] at hrefund
    cases hrefund
    rw [if_pos hz]
    rfl
  · rw [hasRefund_eq_true_iff.2 hz, if_pos rfl] at hrefund
    obtain ⟨_, _, rfl, hrecord, rfl⟩ := List.forall₂_cons_left_iff.1 hrefund
    obtain ⟨_, _, rfl, hnil, rfl⟩ := List.forall₂_cons_left_iff.1 hrecord
    cases hnil
    rw [if_neg hz]
    rfl

/-- The calls of a settlement perform its steps. -/
theorem performs_map (r : PurchaseRecord) (destination : String) (steps : List SettlementStep) :
    List.Forall₂ r.Performs steps (steps.map (r.effectOf destination)) := by
  induction steps with
  | nil => exact .nil
  | cons s rest ih => exact .cons (r.performs_effectOf destination s) ih

end PurchaseRecord

/-! ## what the record tells of them -/

namespace Effect

/-- The effect tells of a fill. -/
def tellsFill : Effect → Bool
  | emit (.tokenPurchase ..) => true
  | _ => false

/-- The effect issues tokens. -/
def isIssue : Effect → Bool
  | issue .. => true
  | _ => false

/-- The effect passes a payment on. -/
def isForward : Effect → Bool
  | forward .. => true
  | _ => false

/-- The effect tells of a payment. -/
def tellsFunds : Effect → Bool
  | emit (.fundsReceived ..) => true
  | _ => false

/-- The effect refunds part of a payment. -/
def isRefund : Effect → Bool
  | refund .. => true
  | _ => false

/-- The effect tells of a refund. -/
def tellsRefund : Effect → Bool
  | emit (.refunded ..) => true
  | _ => false

end Effect

/-- The flags tell which calls of a purchase were accepted.  If nothing goes
back, the flags of the refund are set with the last call, the payment's event. -/
structure SettlementProgress.Tells (p : SettlementProgress) (r : PurchaseRecord)
    (calls : List Effect) : Prop where
  fillsRecorded : p.fillsRecorded = calls.countP Effect.tellsFill
  issued : p.issued = calls.any Effect.isIssue
  forwarded : p.forwarded = calls.any Effect.isForward
  fundsRecorded : p.fundsRecorded = calls.any Effect.tellsFunds
  refunded : p.refunded = calls.any
    (if r.plan.result.fundsRefunded.val = 0 then Effect.tellsFunds else Effect.isRefund)
  refundRecorded : p.refundRecorded = calls.any
    (if r.plan.result.fundsRefunded.val = 0 then Effect.tellsFunds else Effect.tellsRefund)

/-- Lists that are related item by item look the same through functions that agree
on related items. -/
theorem map_of_forall₂ {α β γ : Type} {R : α → β → Prop} {l : List α} {l' : List β} {f : α → γ}
    {f' : β → γ} (h : List.Forall₂ R l l') (hf : ∀ a b, R a b → f' b = f a) :
    l'.map f' = l.map f := by
  induction h with
  | nil => rfl
  | cons hab _ ih => rw [List.map_cons, List.map_cons, hf _ _ hab, ih]

theorem any_of_forall₂ {α β : Type} {R : α → β → Prop} {l : List α} {l' : List β} {f : α → Bool}
    {f' : β → Bool} (h : List.Forall₂ R l l') (hf : ∀ a b, R a b → f' b = f a) :
    l'.any f' = l.any f := by
  simpa [Function.comp_def] using congrArg (List.any · id) (map_of_forall₂ h hf)

namespace PurchaseRecord

variable {r : PurchaseRecord} {step : SettlementStep} {x : Effect} {p : SettlementProgress}
  {landed : List SettlementStep} {calls : List Effect}

/-- The calls that tell of fills are those of the steps that do. -/
theorem Performs.tellsFill (h : r.Performs step x) : x.tellsFill = step.isFill := by
  cases step with
  | forward | recordFunds => obtain ⟨destination, rfl⟩ := h; rfl
  | recordFill | issue | refund | recordRefund => cases h; rfl

/-- The call that issues is that of one step. -/
theorem Performs.isIssue (h : r.Performs step x) : x.isIssue = decide (step = .issue) := by
  cases step with
  | forward | recordFunds => obtain ⟨destination, rfl⟩ := h; rfl
  | recordFill | issue | refund | recordRefund => cases h; rfl

theorem Performs.isForward (h : r.Performs step x) : x.isForward = decide (step = .forward) := by
  cases step with
  | forward | recordFunds => obtain ⟨destination, rfl⟩ := h; rfl
  | recordFill | issue | refund | recordRefund => cases h; rfl

theorem Performs.tellsFunds (h : r.Performs step x) :
    x.tellsFunds = decide (step = .recordFunds) := by
  cases step with
  | forward | recordFunds => obtain ⟨destination, rfl⟩ := h; rfl
  | recordFill | issue | refund | recordRefund => cases h; rfl

theorem Performs.isRefund (h : r.Performs step x) : x.isRefund = decide (step = .refund) := by
  cases step with
  | forward | recordFunds => obtain ⟨destination, rfl⟩ := h; rfl
  | recordFill | issue | refund | recordRefund => cases h; rfl

theorem Performs.tellsRefund (h : r.Performs step x) :
    x.tellsRefund = decide (step = .recordRefund) := by
  cases step with
  | forward | recordFunds => obtain ⟨destination, rfl⟩ := h; rfl
  | recordFill | issue | refund | recordRefund => cases h; rfl

/-- A step that issues tokens issues those of the purchase. -/
theorem Performs.issue_eq (h : r.Performs step x) (hissue : x.isIssue = true) :
    step = .issue ∧ x = .issue r.purchaseId r.beneficiary r.plan.result.tokensAllocated := by
  have hstep : step = .issue := by simpa [hissue] using h.isIssue
  subst hstep
  exact ⟨rfl, h⟩

/-- If nothing goes back, the payment's event is the last step. -/
theorem recordFunds_mem_iff (hinit : landed <+: r.script) (hnone : r.hasRefund = false) :
    .recordFunds ∈ landed ↔ landed = r.script := by
  have hscript : r.script = (r.plan.fills.map .recordFill ++ [.issue, .forward]) ++
      [.recordFunds] := by
    simp [script, hnone]
  rw [hscript] at hinit ⊢
  constructor
  · intro hmem
    refine (List.prefix_concat_iff.1 hinit).resolve_right fun hshort => ?_
    simpa using hshort.subset hmem
  · rintro rfl
    simp

/-- What a progress says of steps it says of the calls by which they have landed. -/
theorem tells_of_describes (h : p.Describes r landed) (hinit : landed <+: r.script)
    (hperforms : List.Forall₂ r.Performs landed calls) : p.Tells r calls := by
  have hflag {f : Effect → Bool} {s : SettlementStep}
      (hf : ∀ step x, r.Performs step x → f x = decide (step = s)) {flag : Bool}
      (hs : flag = true ↔ s ∈ landed) : flag = calls.any f := by
    rw [any_of_forall₂ hperforms hf, Bool.eq_iff_iff, hs]
    simp
  have hcount : calls.countP Effect.tellsFill = landed.countP SettlementStep.isFill := by
    simpa [List.countP_map, Function.comp_def] using congrArg (List.countP id)
      (map_of_forall₂ hperforms fun step x hstep => hstep.tellsFill)
  have hrefund {f : Effect → Bool} {s : SettlementStep}
      (hf : ∀ step x, r.Performs step x → f x = decide (step = s)) {flag : Bool}
      (hs : flag = true ↔ s ∈ landed ∨ r.hasRefund = false ∧ landed = r.script)
      (hscript : s ∈ r.script → r.hasRefund = true) : flag = calls.any
        (if r.plan.result.fundsRefunded.val = 0 then Effect.tellsFunds else f) := by
    split
    -- with nothing to refund both flags are set by the last step, the telling of the payment
    next hz =>
      have hnone := hasRefund_eq_false_iff.2 hz
      have hfree : s ∉ landed := fun hmem => by
        rw [hscript (hinit.subset hmem)] at hnone
        contradiction
      refine hflag (fun _ _ hstep => hstep.tellsFunds) ?_
      rw [hs, recordFunds_mem_iff hinit hnone]
      simp [hnone, hfree]
    next hz =>
      refine hflag hf ?_
      rw [hs, hasRefund_eq_false_iff]
      simp [hz]
  have hlast {s : SettlementStep} (hs : s = .refund ∨ s = .recordRefund) :
      s ∈ r.script → r.hasRefund = true := by
    obtain rfl | rfl := hs <;> cases hd : r.hasRefund <;> simp [script, hd]
  exact {
    fillsRecorded := h.fillsRecorded.trans hcount.symm
    issued := hflag (fun _ _ hstep => hstep.isIssue) h.issued
    forwarded := hflag (fun _ _ hstep => hstep.isForward) h.forwarded
    fundsRecorded := hflag (fun _ _ hstep => hstep.tellsFunds) h.fundsRecorded
    refunded := hrefund (fun _ _ hstep => hstep.isRefund) h.refunded (hlast (.inl rfl))
    refundRecorded :=
      hrefund (fun _ _ hstep => hstep.tellsRefund) h.refundRecorded (hlast (.inr rfl)) }

end PurchaseRecord

/-- The calls accepted on behalf of a purchase are the first ones of those that
settle it.  The record tells which they are, and that the purchase is settled if
they are all; while an attempt is under way, it tells this of the time before. -/
structure PurchaseRecord.FollowsScript (r : PurchaseRecord) (destination told : String)
    (calls : List Effect) : Prop where
  inOrder : calls <+: r.settlementCalls destination told
  recorded : ∃ kept, kept <+: calls ∧ r.settlement.Tells r kept ∧
    (r.isSettled = true ↔ kept = r.settlementCalls destination told) ∧
    (r.settlement.inFlight = false → kept = calls)

/-- With the steps that are left, the calls are all of those that settle the
purchase, wherever the next attempt sends its payment. -/
theorem PurchaseRecord.Lands.followsScript {r : PurchaseRecord}
    {kept landed rest : List SettlementStep} {calls : List Effect} (h : r.Lands kept landed calls)
    (hrest : r.script = landed ++ rest) (next : String) : ∃ destination told,
      calls ++ rest.map (r.effectOf next) = r.settlementCalls destination told ∧
      r.FollowsScript destination told calls := by
  have hall : List.Forall₂ r.Performs r.script (calls ++ rest.map (r.effectOf next)) :=
    hrest ▸ List.rel_append h.performs (r.performs_map next rest)
  obtain ⟨destination, told, hcalls⟩ := settlementCalls_of_performs hall
  have hinit : calls <+: r.settlementCalls destination told := ⟨_, hcalls⟩
  have hkept : List.Forall₂ r.Performs kept (calls.take kept.length) := by
    have htake := List.forall₂_take kept.length h.performs
    rwa [← List.prefix_iff_eq_take.1 h.grown] at htake
  have hlength : (calls.take kept.length).length = kept.length := hkept.length_eq.symm
  have htaken : calls.take kept.length <+: r.settlementCalls destination told :=
    (List.take_prefix ..).trans hinit
  refine ⟨destination, told, hcalls, hinit, calls.take kept.length, List.take_prefix ..,
    tells_of_describes h.describes (h.grown.trans h.inOrder) hkept, ?_, fun hflight => ?_⟩
  · rw [h.isSettled_iff]
    constructor
    · intro hwhole
      refine htaken.eq_of_length ?_
      rw [hlength, hwhole, length_settlementCalls]
    · intro hwhole
      refine (h.grown.trans h.inOrder).eq_of_length ?_
      rw [← hlength, hwhole, length_settlementCalls]
  · rw [(h.resting hflight).1, h.performs.length_eq, List.take_length]

/-! ## where payments go -/

/-- Where the payments of a sale go. -/
def Book.destination? (b : Book) : Option String := b.config?.map SaleConfig.settlementDestination

/-- Where an effect sends a payment, or tells that it has gone. -/
def Effect.destination? : Effect → Option String
  | forward _ _ _ destination | emit (.fundsReceived _ _ _ destination) => some destination
  | _ => none

/-- Where a caller that is settling a purchase sends its payment. -/
def Holding.destination? : Holding → Option String
  | settling _ _ destination _ _ => some destination
  | _ => none

/-- A payment goes to the destination that the attempt started with. -/
theorem destination?_effectOf {r : PurchaseRecord} {destination d : String} {step : SettlementStep}
    (h : (r.effectOf destination step).destination? = some d) : d = destination := by
  cases step with
  | forward | recordFunds => exact (Option.some.inj h).symm
  | recordFill | issue | refund | recordRefund => contradiction

/-- Callers and accepted calls send payments where the sale says. -/
structure PaysDestination (es : List Event) (g : Tracked) : Prop where
  held : ∀ i d, (g.holding i).destination? = some d → g.book.destination? = some d
  paid : ∀ id, ∀ x ∈ accepted id es, ∀ d, x.destination? = some d → g.book.destination? = some d

/-- An attempt begins with the destination of the sale. -/
theorem LockStep.destination {o : Operation} {b b' : Book} {now : Instant} {h h' : Holding}
    (hs : LockStep o b now h b' h') {d : String} (hd : h'.destination? = some d) :
    b'.destination? = some d := by
  cases hs with
  | beginSettlement ho hb =>
      obtain ⟨t, r, ht, -, -, -, rfl, -, rfl⟩ := Book.beginSettlement_started hb
      simpa [Book.destination?, Book.config?, Holding.destination?, ht] using hd
  | keep | change | setPaused | commit | endSettled | endFailed | beginFinalize | finalize
  | giveUpFinalize => contradiction

/-- An attempt goes on with it. -/
theorem Answered.destination {o : Operation} {h h' : Holding} {c : Call} {a : c.Answer}
    (ha : Answered o h c a h') {d : String} (hd : h'.destination? = some d) :
    h.destination? = some d := by
  cases ha with
  | landed | refused => exact hd
  | compliance | rate | announced | issued | notIssued | finalAnnounced => contradiction

/-- A call on behalf of a purchase has it. -/
theorem Answered.destination_of_accepted {o : Operation} {h h' : Holding} {i : Nat} {c : Call}
    {a : c.Answer} (ha : Answered o h c a h') {id : Uuid} {x : Effect}
    (hx : Event.accepted? id (.answer i o c a) = some x) {d : String}
    (hd : x.destination? = some d) : h.destination? = some d := by
  cases ha with
  | landed ho hstep =>
      simp only [Event.accepted?, Option.ite_none_right_eq_some, Option.some.injEq] at hx
      obtain ⟨-, rfl⟩ := hx
      rw [destination?_effectOf hd]
      rfl
  | @announced event a hnone => cases a <;> simp [Event.accepted?, hnone] at hx
  | issued ho => simp [Event.accepted?, ho, Operation.settles] at hx
  | @finalAnnounced c a ho => cases a <;> simp [Event.accepted?, ho, Operation.settles] at hx
  | compliance | rate | refused | notIssued => contradiction

/-- **No step of a run pays anywhere but the destination in force.** -/
theorem Tracked.Step.paysDestination {es : List Event} {g g' : Tracked} {e : Event}
    (hs : Tracked.Step Forward g e g') (haccount : ∀ id, Account es g id) (hg : g.Reconciles)
    (h : PaysDestination es g) : PaysDestination (es ++ [e]) g' := by
  -- with a purchase on record the sale has opened, so its destination stays
  have hkeeps {id : Uuid} {r : PurchaseRecord} (hr : g.book.purchases.get? id = some r) :
      g'.book.destination? = g.book.destination? := by
    have hfiled : g.book.filed ≠ [] := by
      intro hempty
      have hmem := Directory.get?_eq_some_iff.1 hr
      simp_all [Book.filed]
    rw [Book.destination?, (hs.advances.opened (hg.opened hfiled)).2.config, Book.destination?]
  have hheld (i : Nat) (d : String) (hd : (g.holding i).destination? = some d) :
      g'.book.destination? = some d := by
    cases hi : g.holding i with
    | settling id r d' p failure =>
        rw [hkeeps ((haccount id).of_settling hi).1]
        exact h.held i d hd
    | nothing | announcing | finalizing | finalized => simp [hi, Holding.destination?] at hd
  have hpaid (id : Uuid) (x : Effect) (hx : x ∈ accepted id es) (d : String)
      (hd : x.destination? = some d) : g'.book.destination? = some d := by
    cases hr : g.book.purchases.get? id with
    | none => simp [(haccount id).accepted_eq_nil hr] at hx
    | some r =>
        rw [hkeeps hr]
        exact h.paid id x hx d hd
  constructor
  · cases hs with
    | tick | begin => exact hheld
    | @lock i o b' h' hs =>
        intro j d hd
        by_cases hj : j = i
        · subst hj
          rw [Tracked.withHolding_self] at hd
          exact hs.destination hd
        · rw [Tracked.withHolding_ne g hj] at hd
          exact hheld j d hd
    | @answer i o c a h' ha =>
        intro j d hd
        by_cases hj : j = i
        · subst hj
          rw [Tracked.withHolding_self] at hd
          exact hheld j d (ha.destination hd)
        · rw [Tracked.withHolding_ne g hj] at hd
          exact hheld j d hd
    | @finish i o result hends =>
        intro j d hd
        by_cases hj : j = i
        · subst hj
          rw [Tracked.withHolding_self] at hd
          contradiction
        · rw [Tracked.withHolding_ne g hj] at hd
          exact hheld j d hd
  · intro id x hx d hd
    rw [accepted_append, List.mem_append, Option.mem_toList] at hx
    obtain hx | hx := hx
    · exact hpaid id x hx d hd
    · cases hs with
      | answer ha => exact hheld _ d (ha.destination_of_accepted hx hd)
      | tick | begin | lock | finish => contradiction

/-- **While the clock does not go back, payments go where the sale says.** -/
theorem Run.pays_destination {t : Instant} {es : List Event} {s : System}
    (h : Run Forward (.start t) es s) {id : Uuid} {x : Effect} (hx : x ∈ accepted id es)
    {d : String} (hd : x.destination? = some d) : s.book.destination? = some d := by
  obtain ⟨g, ⟨-, -, hpays⟩, hbook, -⟩ := h.invariant
    (P := fun es g => (∀ id, Account es g id) ∧ g.Reconciles ∧ PaysDestination es g)
    ⟨fun id => .absent rfl (fun _ => by simp [Tracked.start, Holding.settling?]) rfl,
      ⟨Book.reconciles_blank, fun hne => absurd rfl hne⟩,
      fun i d hd => by simp [Tracked.start, Holding.destination?] at hd,
      fun id x hx => by simp [accepted] at hx⟩
    fun ⟨haccount, hg, hpays⟩ hs =>
      ⟨hs.account haccount, hs.reconciles hg, hs.paysDestination haccount hg hpays⟩
  exact hbook ▸ hpays.paid id x hx d hd

/-! ## one attempt alone -/

theorem alone_atomically {α β : Type} {reply : (c : Call) → c.Answer} {now : Instant} {b : Book}
    {step : Book → Instant → α × Book} {k : α → Program β} :
    (Program.atomically step >>= k).alone reply now b =
      (k (step b now).1).alone reply now (step b now).2 := rfl

/-- A step that succeeds, followed by the rest of the program. -/
theorem alone_attempt {α β : Type} {reply : (c : Call) → c.Answer} {now : Instant} {b b' : Book}
    {step : Book → Instant → Except SaleError (α × Book)} {k : Except SaleError α → Program β}
    {x : α} (h : step b now = .ok (x, b')) :
    (Program.attempt step >>= k).alone reply now b = (k (.ok x)).alone reply now b' := by
  unfold Program.attempt
  rw [alone_atomically, h]

/-- With every call accepted, a settlement goes through all of its steps. -/
theorem alone_runSteps {α : Type} {reply : (c : Call) → c.Answer}
    (hreply : ∀ e, reply (.effect e) = .ok ()) {now : Instant} {b : Book} {r : PurchaseRecord}
    {destination : String} {k : SettlementProgress × Option CollaboratorError → Program α}
    (steps : List SettlementStep) (p : SettlementProgress) :
    (runSteps r destination steps p >>= k).alone reply now b =
      let rest := (k ((steps.foldl SettlementProgress.mark p).close, none)).alone reply now b
      { rest with effects := steps.map (r.effectOf destination) ++ rest.effects } := by
  induction steps generalizing p with
  | nil => rfl
  | cons s steps ih =>
      have hcall : (runSteps r destination (s :: steps) p >>= k).alone reply now b =
          let c := Call.effect (r.effectOf destination s)
          let rest := ((match reply c with
            | .ok () => runSteps r destination steps (p.mark s)
            | .error e => .done (p, some e)) >>= k).alone reply now b
          { rest with effects := c.landed (reply c) ++ rest.effects } := rfl
      rw [hcall]
      simp only [hreply, ih, Call.landed, List.map_cons, List.foldl_cons, List.cons_append,
        List.nil_append]

/-- A purchase on record that is not settled, nor being settled, can be. -/
theorem Book.beginSettlement_eq {b : Book} {id : Uuid} {t : Terms} {r : PurchaseRecord}
    (ht : b.terms = some t) (hr : b.purchases.get? id = some r) (hsettled : r.isSettled = false)
    (hflight : r.settlement.inFlight = false) :
    b.beginSettlement id = .ok (.started (attempted r) t.config.settlementDestination,
      { b with purchases := b.purchases.insert id (attempted r) }) := by
  simp [beginSettlement, ht, hr, hsettled, hflight, attempted]

/-- What a retry does alone to a purchase that nobody is settling: all that is
outstanding, and the record says so. -/
theorem alone_retrySettlement {reply : (c : Call) → c.Answer}
    (hreply : ∀ e, reply (.effect e) = .ok ()) (now : Instant) {b : Book} {id : Uuid}
    {t : Terms} {r : PurchaseRecord} (ht : b.terms = some t) (hr : b.purchases.get? id = some r)
    (hsettled : r.isSettled = false) (hflight : r.settlement.inFlight = false) :
    (Operation.retrySettlement id).program.alone reply now b =
      ⟨.ok .complete,
        { b with purchases := b.purchases.insert id (Book.attempted r) }.endSettlement id
          ((r.outstandingAt r.settlement).foldl SettlementProgress.mark
            (Book.attempted r).settlement).close none,
        (r.outstandingAt r.settlement).map (r.effectOf t.config.settlementDestination)⟩ := by
  have hbegin := Book.beginSettlement_eq ht hr hsettled hflight
  change (settle id).alone reply now b = _
  unfold settle
  rw [alone_attempt hbegin]
  simp only
  rw [alone_runSteps hreply]
  exact congrArg (Program.Outcome.mk _ _) (List.append_nil _)

/-- What an attempt does alone to a purchase that is settled: nothing. -/
theorem alone_retrySettlement_settled {reply : (c : Call) → c.Answer} {now : Instant} {b : Book}
    {id : Uuid} {t : Terms} {r : PurchaseRecord} (ht : b.terms = some t)
    (hr : b.purchases.get? id = some r) (hsettled : r.isSettled = true) :
    (Operation.retrySettlement id).program.alone reply now b = ⟨.ok .complete, b, []⟩ := by
  have hbegin : b.beginSettlement id = .ok (.idle .complete, b) := by
    simp [Book.beginSettlement, ht, hr, hsettled]
  change (settle id).alone reply now b = _
  unfold settle
  rw [alone_attempt hbegin]
  rfl

/-- Once the steps that were outstanding have landed, the record says so. -/
theorem Book.get?_of_landed {b : Book} {id : Uuid} {r : PurchaseRecord}
    (hr : b.purchases.get? id = some (attempted r)) :
    ∃ r', (b.endSettlement id ((r.outstandingAt r.settlement).foldl SettlementProgress.mark
      (attempted r).settlement).close none).purchases.get? id = some r' ∧
      r'.isSettled = true ∧ r'.filed = r.filed := by
  have hdone : (attempted r).outstandingAt ((r.outstandingAt r.settlement).foldl
      SettlementProgress.mark (attempted r).settlement) = [] :=
    PurchaseRecord.outstandingAt_foldl rfl
  have hcomplete := PurchaseRecord.isComplete_close hdone
  exact ⟨_, get?_endSettlement_self hr _ none, hcomplete, rfl⟩

/-- An attempt has settled a purchase: with the calls accepted before it, its own
are all that settle the purchase, and the record says so. -/
structure Program.Outcome.Settles (x : Program.Outcome (Except SaleError SettlementStatus))
    (id : Uuid) (r : PurchaseRecord) (destination told : String) (before : List Effect) :
    Prop where
  result : x.result = .ok .complete
  calls : before ++ x.effects = r.settlementCalls destination told
  record : ∃ r', x.book.purchases.get? id = some r' ∧ r'.isSettled = true ∧ r'.filed = r.filed

/-- A retry whose calls all succeed makes the calls that are left. -/
theorem PurchaseRecord.Lands.settles {r : PurchaseRecord} {kept landed rest : List SettlementStep}
    {calls : List Effect} (h : r.Lands kept landed calls) (hrest : r.script = landed ++ rest)
    (hflight : r.settlement.inFlight = false) {b : Book} {id : Uuid} {t : Terms}
    (ht : b.terms = some t) (hr : b.purchases.get? id = some r) {destination told : String}
    (hcalls : calls ++ rest.map (r.effectOf t.config.settlementDestination) =
      r.settlementCalls destination told) {reply : (c : Call) → c.Answer}
    (hreply : ∀ e, reply (.effect e) = .ok ()) (now : Instant) :
    ((Operation.retrySettlement id).program.alone reply now b).Settles id r destination told
      calls := by
  obtain ⟨hkept, hscript⟩ := h.resting hflight
  obtain rfl : rest = r.outstandingAt r.settlement := by
    rw [hscript] at hrest
    exact (List.append_cancel_left hrest).symm
  cases hsettled : r.isSettled with
  | true =>
      have hnil : r.outstandingAt r.settlement = [] := outstandingAt_of_isComplete hsettled
      rw [alone_retrySettlement_settled ht hr hsettled]
      rw [hnil] at hcalls
      exact ⟨rfl, hcalls, r, hr, hsettled, rfl⟩
  | false =>
      rw [alone_retrySettlement hreply now ht hr hsettled hflight]
      exact ⟨rfl, hcalls, Book.get?_of_landed (Directory.get?_insert_self ..)⟩

/-! ## every run -/

/-- **Settlement follows the script.**  Whatever callers do, the clock shows and
services answer: the calls accepted on behalf of a purchase are the first ones
of those that settle it, none of them twice and none left out; its record tells
which, and that it is settled exactly if they are all; while no operation is
under way no attempt is; and then one retry whose calls all succeed completes
them.  The payment goes to the destination of the sale and is told to have gone
there, unless the clock went back. -/
theorem settlement_follows_script {clock : Instant → Instant → Prop} {t : Instant}
    {es : List Event} {s : System} (h : Run clock (.start t) es s) (id : Uuid) :
    match s.book.purchases.get? id with
    | none => accepted id es = []
    | some r => ∃ destination told,
      (Run Forward (.start t) es s →
        s.book.destination? = some destination ∧ told = destination) ∧
      r.FollowsScript destination told (accepted id es) ∧
      (s.IsQuiet → r.settlement.inFlight = false) ∧
      (r.settlement.inFlight = false → ∀ reply : (c : Call) → c.Answer,
        (∀ e, reply (.effect e) = .ok ()) →
          ((Operation.retrySettlement id).program.alone reply s.now s.book).Settles id r
            destination told (accepted id es)) := by
  obtain ⟨g, haccount, hg⟩ := h.account
  have haccount : Account es g id := haccount id
  rw [← hg.1, ← hg.2.1]
  split
  next hr => exact haccount.accepted_eq_nil hr
  next r hr =>
    obtain ⟨-, configured, kept, landed, hlands⟩ := haccount.lands hr
    obtain ⟨terms, ht⟩ := Option.isSome_iff_exists.1 configured
    obtain ⟨rest, hrest⟩ := hlands.inOrder
    obtain ⟨destination, told, hcalls, hfollows⟩ :=
      hlands.followsScript hrest.symm terms.config.settlementDestination
    refine ⟨destination, told, fun hforward => ?_, hfollows, fun hquiet => ?_,
      fun hflight reply hreply =>
        hlands.settles hrest.symm hflight ht hr hcalls hreply g.now⟩
    · have hpays (x : Effect) (hx : x ∈ r.settlementCalls destination told) (d : String)
          (hd : x.destination? = some d) : g.book.destination? = some d := by
        rw [← hcalls, List.mem_append, List.mem_map] at hx
        obtain hx | ⟨step, -, rfl⟩ := hx
        · exact hg.1 ▸ hforward.pays_destination hx hd
        · rw [destination?_effectOf hd, Book.destination?, Book.config?, ht]
          rfl
      have hdestination := hpays (.forward r.purchaseId r.plan.currency
        r.plan.result.fundsConsumed destination) (by simp [PurchaseRecord.settlementCalls]) destination rfl
      have htold := hpays (.emit (.fundsReceived r.purchaseId r.plan.currency
        r.plan.result.fundsConsumed told)) (by simp [PurchaseRecord.settlementCalls]) told rfl
      exact ⟨hdestination, Option.some.inj (htold.symm.trans hdestination)⟩
    · cases haccount with
      | absent record =>
          rw [hr] at record
          contradiction
      | resting record own configured flight =>
          rw [hr, Option.some.injEq] at record
          exact record ▸ flight
      | @underway i _ _ _ _ _ _ record own configured flight holder =>
          rw [hg.idle (hquiet i)] at holder
          contradiction

/-- Services of which the token ledger refuses every issue. -/
def Sample.refuseIssue : (c : Call) → c.Answer
  | .effect (.issue ..) => .error ⟨.tokenLedger, "unavailable"⟩
  | c => Sample.reply c

/-- Thirty more than there is to buy for. -/
def Sample.overpaying : PurchaseRequest := { Sample.request with amount := ⟨130, by decide⟩ }

/-- A purchase whose tokens were not issued at first: its fill was told, and a
retry does the rest, the refund among it. -/
theorem settlement_follows_script_after_failure : ∃ es s r,
    Run Forward (.start Sample.early) es s ∧
    s.book.purchases.get? ⟨7, by decide⟩ = some r ∧
    (r.isSettled = false ∧ r.settlement.fillsRecorded = 1 ∧
      r.plan.result.fundsRefunded.val = 30) ∧
    r.FollowsScript "vault" "vault" (accepted ⟨7, by decide⟩ es) ∧
    ((Operation.retrySettlement ⟨7, by decide⟩).program.alone Sample.reply s.now s.book).Settles
      ⟨7, by decide⟩ r "vault" "vault" (accepted ⟨7, by decide⟩ es) := by
  obtain ⟨es₁, h₁⟩ := Sample.run_configured Sample.refuseIssue
  obtain ⟨es₂, h₂⟩ := Run.alone Forward Sample.refuseIssue 0 (.purchase Sample.overpaying)
    (s := .idle (Sample.configured Sample.refuseIssue) Sample.open) rfl
  have h := h₁.append h₂
  obtain ⟨destination, told, hpays, hfollows, -, hsettles⟩ :=
    settlement_follows_script h ⟨7, by decide⟩
  obtain ⟨hdestination, htold⟩ := hpays h
  obtain rfl : "vault" = destination := Option.some.inj hdestination
  subst htold
  exact ⟨_, _, _, h, rfl, ⟨rfl, rfl, rfl⟩, hfollows, hsettles rfl Sample.reply fun _ => rfl⟩

end TokenSale
