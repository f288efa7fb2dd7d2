import TokenSale.Command.Execute
import TokenSale.Proofs.ReliableWorld
import TokenSale.Proofs.UnusedKeys
import TokenSale.Simulation.Run

/-!
# TokenSale.Proofs.SimulationReport

The report on a simulated sale reconciles with its script, whatever the script
asks for and however its times run.  The clock of a script may go back, so
nothing here rests on time: what the report tells is what the book has on
record, and every outcome is that of one purchase on it.  A journal that is kept
may refuse events; a purchase of which it refuses one is pending in the report.

* `Outcomes` — the outcomes of purchases, and the records that they are of;
* `Book.Tells` — a book that has these records;
* `outcomes_of_playAll` — a script adds its records to those before;
* `SimulationReport.Reconciles`, `simulation_reconciles` — every report;
* `pending_under_missing_folder` — a journal that refuses every event.
-/

namespace TokenSale

/-! ## outcomes and records -/

/-- What is owed to a request: a purchase of which the payment is kept or goes
back. -/
structure PurchaseReceipt.Serves (r : PurchaseReceipt) (q : PurchaseRequest) : Prop where
  currency : r.plan.currency = q.currency
  paid : r.plan.result.fundsConsumed.val + r.plan.result.fundsRefunded.val = q.amount.val

/-- A receipt serves the request that was committed. -/
theorem Book.serves_of_commitPurchase {b b' : Book} {now : Instant} {q : PurchaseRequest}
    {checked : Book.Checked} {record : PurchaseRecord}
    (h : b.commitPurchase q checked now = .ok (record, b')) {r : PurchaseRecord}
    (hfiled : r.filed = record.filed) : (r.receipt r.status).Serves q := by
  have hplan : r.plan = record.plan := congrArg (·.plan) hfiled
  obtain ⟨-, -, t, -, -, -, hallocate⟩ := plan_ok (commitPurchase_ok h).1
  obtain ⟨⟨-, -, hcurrency⟩, -⟩ := allocate_ok hallocate
  rw [← hplan] at hallocate hcurrency
  exact ⟨hcurrency, (allocate_adds hallocate).funds⟩

/-- Purchases from number `index` on, their outcomes in order, and the records
of those that were committed. -/
inductive Outcomes : Nat → List ScriptedPurchase → List Outcome → List PurchaseRecord → Prop
  | nil (index : Nat) : Outcomes index [] [] []
  | committed {index : Nat} {p : ScriptedPurchase} {r : PurchaseRecord}
    {ps : List ScriptedPurchase} {os : List Outcome} {rs : List PurchaseRecord}
    (hp : (r.receipt r.status).Serves p.request) (h : Outcomes (index + 1) ps os rs) :
    Outcomes index (p :: ps) (.committed index (r.receipt r.status) :: os) (r :: rs)
  | rejected {index : Nat} {p : ScriptedPurchase} {ps : List ScriptedPurchase} {os : List Outcome}
    {rs : List PurchaseRecord} (e : SaleError) (h : Outcomes (index + 1) ps os rs) :
    Outcomes index (p :: ps) (.rejected index e :: os) rs

namespace Outcome

/-- The place of the purchase in its script. -/
def index : Outcome → Nat
  | committed index _ | rejected index _ => index

/-- The receipt of a purchase that was committed. -/
def receipt? : Outcome → Option PurchaseReceipt
  | committed _ receipt => some receipt
  | rejected .. => none

end Outcome

namespace Outcomes

variable {index : Nat} {ps : List ScriptedPurchase} {os : List Outcome}
  {rs : List PurchaseRecord}

/-- The outcomes are numbered in the order of the script. -/
theorem map_index (h : Outcomes index ps os rs) :
    os.map Outcome.index = List.range' index ps.length := by
  induction h with
  | nil => rfl
  | committed _ _ ih | rejected _ _ ih => simpa [Outcome.index, List.range'_succ] using ih

/-- The receipts among them are those of the records. -/
theorem receipts (h : Outcomes index ps os rs) :
    os.filterMap Outcome.receipt? = rs.map fun r => r.receipt r.status := by
  induction h with
  | nil => rfl
  | committed _ _ ih => simpa [Outcome.receipt?] using ih
  | rejected _ _ ih => exact ih

/-- A receipt serves the request of its number. -/
theorem serves (h : Outcomes index ps os rs) {i : Nat} {receipt : PurchaseReceipt}
    (hi : .committed i receipt ∈ os) :
    ∃ k p, i = index + k ∧ ps[k]? = some p ∧ receipt.Serves p.request := by
  induction h with
  | nil => contradiction
  | @committed index p r ps os rs hp h ih =>
      obtain heq | hrest := List.mem_cons.1 hi
      · obtain ⟨rfl, rfl⟩ := Outcome.committed.inj heq
        exact ⟨0, p, rfl, rfl, hp⟩
      · obtain ⟨k, p', rfl, hk, hserves⟩ := ih hrest
        exact ⟨k + 1, p', by omega, hk, hserves⟩
  | @rejected index p ps os rs e h ih =>
      obtain heq | hrest := List.mem_cons.1 hi
      · contradiction
      · obtain ⟨k, p', rfl, hk, hserves⟩ := ih hrest
        exact ⟨k + 1, p', by omega, hk, hserves⟩

end Outcomes

/-! ## the records of a book -/

/-- The book is that of a setup and has these records; those are pending of
which the last attempt has failed. -/
structure Book.Tells (setup : SaleSetup) (rs : List PurchaseRecord) (b : Book) : Prop where
  reconciles : b.Reconciles
  balanced : b.Balanced
  terms : ∃ t, b.terms = some t ∧ t.tiers.specs = setup.tiers
  records : b.purchases.entries.Perm (rs.map fun r => (r.purchaseId, r))
  settled : ∀ r ∈ rs, r.isSettled = true ↔ r.settlement.lastError = none

namespace Book

variable {setup : SaleSetup} {rs : List PurchaseRecord} {b b' b'' : Book} {now : Instant}

/-- The book holds the told records and no others. -/
theorem Tells.values_perm (h : b.Tells setup rs) : b.purchases.values.Perm rs := by
  simpa [Directory.values, Function.comp_def] using h.records.map Prod.snd

/-- The sums over the book are those over the told records. -/
theorem Tells.samePurchases (h : b.Tells setup rs) : SamePurchases b.purchases.values rs :=
  .of_perm h.values_perm

theorem Tells.nodup (h : b.Tells setup rs) : (rs.map PurchaseRecord.purchaseId).Nodup := by
  have hids : b.purchases.keys.Perm (rs.map PurchaseRecord.purchaseId) := by
    simpa [Directory.keys, Function.comp_def] using h.records.map Prod.fst
  exact hids.nodup_iff.1 b.purchases.nodup_keys

/-- As many purchases are on record as were told. -/
theorem Tells.size_purchases (h : b.Tells setup rs) : b.purchases.size = rs.length := by
  simpa [Directory.size, Directory.values] using h.values_perm.length_eq

/-- The purchases that are pending are those of which callers were told so. -/
theorem Tells.length_pendingRecords (h : b.Tells setup rs) :
    b.pendingRecords.length = (rs.filter fun r => r.status ≠ .complete).length := by
  rw [pendingRecords, (h.values_perm.filter _).length_eq]
  refine congrArg List.length (List.filter_congr fun r hr => ?_)
  have hstatus : r.status = .complete ↔ r.isSettled = true :=
    r.status_eq_complete_iff.trans (h.settled r hr).symm
  simp [hstatus]

/-- The tiers have sold what the records have bought, and have the rest of what
the setup offers. -/
theorem Tells.tiers (h : b.Tells setup rs) : ∃ t, b.terms = some t ∧
    t.tiers.totalSold.val = tokensOf rs ∧ t.tiers.totalSold.val + t.tiers.totalRemaining.val =
      (setup.tiers.map fun s => s.totalCapacity.val).sum := by
  obtain ⟨t, ht, hspecs⟩ := h.terms
  have hbuilt := h.balanced.built t ht
  refine ⟨t, ht, ?_, ?_⟩
  · rw [hbuilt.val_totalSold, h.balanced.sold t ht, sumOf_tokens]
    exact h.samePurchases.sum fun _ => rfl
  · rw [hbuilt.val_totalSold, hbuilt.val_totalRemaining, TierLedger.offered_eq, hspecs]

/-- A purchase that is committed adds its record, as an attempt at its settlement
has left it. -/
theorem Tells.committed (h : b.Tells setup rs) {q : PurchaseRequest} {checked : Checked}
    {record r : PurchaseRecord} (hc : b.commitPurchase q checked now = .ok (record, b'))
    (hattempt : b'.Attempts record r b'') : b''.Tells setup (rs ++ [r]) := by
  obtain ⟨hfree, -, hpurchases, -⟩ := purchases_of_commitPurchase hc
  refine ⟨(reconciles_commitPurchase h.reconciles hc).of_sealed hattempt.kept,
    (h.balanced.of_commitPurchase hc).of_sealed hattempt.kept, ?_, ?_, ?_⟩
  · obtain ⟨t, ht, hspecs⟩ := h.terms
    obtain ⟨t', tiers, caps, unitsRaised, fundsRaised, tokensByCurrency, id, nextSeq, ht', hcommit,
      -, -, -, -, -, rfl⟩ := recordPlan_ok (commitPurchase_ok hc).2.1
    rw [ht, Option.some.injEq] at ht'
    subst ht'
    exact ⟨_, hattempt.kept.terms, (commitPlan_ok hcommit).1.specs.trans hspecs⟩
  · have hid : r.purchaseId = record.purchaseId := congrArg (·.purchaseId) hattempt.filed
    have hplace : b''.purchases.entries.Perm ((r.purchaseId, r) :: b.purchases.entries) := by
      rw [hattempt.purchases, hpurchases, Directory.insert_insert, hid]
      exact Directory.place_perm hfree
    rw [List.map_append]
    exact hplace.trans ((h.records.cons _).trans (List.perm_append_singleton ..).symm)
  · rw [List.forall_mem_append, List.forall_mem_singleton]
    exact ⟨h.settled, hattempt.settled⟩

/-- Nothing else than the flags of the sale has changed. -/
theorem Tells.of_sealed (h : b.Tells setup rs) (hs : b.Sealed b')
    (hpurchases : b'.purchases = b.purchases) : b'.Tells setup rs :=
  ⟨h.reconciles.of_sealed hs, h.balanced.of_sealed hs, hs.terms ▸ h.terms,
    hpurchases ▸ h.records, h.settled⟩

/-- A sale that was configured has no records. -/
theorem tells_of_change {tiers : TierLedger} {version : Nat}
    (hconfig : setup.config.fault? = none) (hspecs : TierLedger.ofSpecs setup.tiers = .ok tiers)
    (h : blank.change (.configure setup.config tiers) now = .ok (version, b)) :
    b.Tells setup [] := by
  have ho : (Operation.configure setup.config setup.tiers).change? =
      some (.ok (.configure setup.config tiers)) := by
    simp only [Operation.change?, hconfig, hspecs]
    rfl
  obtain ⟨hsums, hpurchases⟩ := sumsOf_nil_of_change reconciles_blank ho h
  have hbalanced := balanced_blank.of_change rfl ho h
  obtain ⟨-, -, t, limit, overrides, rfl, htiers⟩ := change_ok h
  have hspecs : t.tiers.specs = setup.tiers := by
    rw [show t.tiers = tiers from htiers, TierLedger.specs_of_ofSpecs hspecs]
  exact ⟨hsums, hbalanced, ⟨t, rfl, hspecs⟩, by rw [hpurchases]; exact .nil,
    List.forall_mem_nil _⟩

end Book

/-! ## playing a script -/

namespace Simulation

variable {setup : SaleSetup} {reliable : Prop} {rs : List PurchaseRecord} {w : World}

/-- A simulated sale between two purchases, and what holds of it if no call for
an effect fails. -/
structure Resting (setup : SaleSetup) (reliable : Prop) (rs : List PurchaseRecord) (w : World) :
    Prop where
  book : w.book.Tells setup rs
  settled : reliable → w.Reliable ∧ w.HasIssued ∧ ∀ r ∈ rs, r.status = .complete

/-- Neither the clock nor the rates matter. -/
theorem Resting.setTime (h : Resting setup reliable rs w) (now : Instant)
    (quotes : Directory Currency Quote) :
    Resting setup reliable rs ((w.setTime now).stampQuotes quotes) where
  book := h.book
  settled hr :=
    have ⟨hw, ⟨xs, hxs⟩, hrs⟩ := h.settled hr
    ⟨⟨hw.issues, hw.forwards, hw.refunds, hw.events⟩, ⟨xs, hxs.books, hxs.issues⟩, hrs⟩

theorem run_bind_of {α β : Type} {x : StateM World α} {f : α → StateM World β} {a : α}
    {w' : World} (h : x.run w = (a, w')) : (x >>= f).run w = (f a).run w' := by
  rw [StateT.run_bind, h]
  rfl

section

variable {quotes : Directory Currency Quote} {index : Nat} {p : ScriptedPurchase} {w' : World}

/-- A purchase that succeeds is reported as committed. -/
theorem run_play_ok {receipt : PurchaseReceipt} (h : World.run (Sale.purchase p.request)
    ((w.setTime p.time).stampQuotes quotes) = (.ok receipt, w')) :
    (play quotes index p).run w = (.committed index receipt, w') := by
  unfold play
  exact (run_bind_of rfl).trans (run_bind_of h)

theorem run_play_error {e : SaleError} (h : World.run (Sale.purchase p.request)
    ((w.setTime p.time).stampQuotes quotes) = (.error e, w')) :
    (play quotes index p).run w = (.rejected index e, w') := by
  unfold play
  exact (run_bind_of rfl).trans (run_bind_of h)

end

/-- **A purchase of a script is committed or it is rejected.** -/
theorem play_cases (h : Resting setup reliable rs w) (quotes : Directory Currency Quote)
    (index : Nat) (p : ScriptedPurchase) :
    (∃ r : PurchaseRecord, (r.receipt r.status).Serves p.request ∧
        ((play quotes index p).run w).1 = .committed index (r.receipt r.status) ∧
        Resting setup reliable (rs ++ [r]) ((play quotes index p).run w).2) ∨
      ∃ e, ((play quotes index p).run w).1 = .rejected index e ∧
        Resting setup reliable rs ((play quotes index p).run w).2 := by
  have hready := h.setTime p.time quotes
  have hbuys := World.buys ((w.setTime p.time).stampQuotes quotes) p.request
  have hsettles (hr : reliable) :=
    World.settles_of_reliable (hready.settled hr).1 (hready.settled hr).2.1 hready.book.balanced
      p.request
  generalize hx : World.run (Sale.purchase p.request) _ = x at hbuys hsettles
  obtain ⟨result, w'⟩ := x
  simp only at hbuys hsettles
  generalize hbook : w'.book = b at hbuys
  cases hbuys with
  | refused e =>
      rw [run_play_error hx]
      exact .inr ⟨e, rfl, hbook ▸ hready.book,
        fun hr => ⟨(hsettles hr).1, (hsettles hr).2.1, (h.settled hr).2.2⟩⟩
  | @committed checked record r b₁ _ hcommit hattempt =>
      rw [run_play_ok hx]
      refine .inl ⟨r, Book.serves_of_commitPurchase hcommit hattempt.filed, rfl,
        hbook ▸ hready.book.committed hcommit hattempt, fun hr => ?_⟩
      obtain ⟨hreliable, hissued, hcomplete⟩ := hsettles hr
      refine ⟨hreliable, hissued, ?_⟩
      rw [List.forall_mem_append, List.forall_mem_singleton]
      exact ⟨(h.settled hr).2.2, hcomplete _ rfl⟩

/-- **A script adds its records to those before.** -/
theorem outcomes_of_playAll (quotes : Directory Currency Quote) (index : Nat)
    (ps : List ScriptedPurchase) {rs : List PurchaseRecord} {w : World}
    (h : Resting setup reliable rs w) : ∃ rs',
    Outcomes index ps ((playAll quotes index ps).run w).1 rs' ∧
      Resting setup reliable (rs ++ rs') ((playAll quotes index ps).run w).2 := by
  induction ps generalizing index rs w with
  | nil => exact ⟨[], .nil index, by rwa [List.append_nil]⟩
  | cons p ps ih =>
      have hplay : (playAll quotes index (p :: ps)).run w =
          (((play quotes index p).run w).1 ::
            ((playAll quotes (index + 1) ps).run ((play quotes index p).run w).2).1,
            ((playAll quotes (index + 1) ps).run ((play quotes index p).run w).2).2) := rfl
      rw [hplay]
      obtain ⟨r, hserves, houtcome, hrest⟩ | ⟨e, houtcome, hrest⟩ := play_cases h quotes index p
      · obtain ⟨rs', houtcomes, hplayed⟩ := ih (index + 1) hrest
        rw [houtcome]
        refine ⟨r :: rs', .committed hserves houtcomes, ?_⟩
        simpa using hplayed
      · obtain ⟨rs', houtcomes, hplayed⟩ := ih (index + 1) hrest
        rw [houtcome]
        exact ⟨rs', .rejected e houtcomes, hplayed⟩

/-- The sale of a setup that was checked is configured.  It is reliable if the
journal is, should one be kept. -/
theorem resting_of_configure {tiers : TierLedger} (hconfig : setup.config.fault? = none)
    (hspecs : TierLedger.ofSpecs setup.tiers = .ok tiers) (script : Script)
    (journal : Option Sink) :
    ∃ w, World.run (Sale.configure setup.config setup.tiers) (stage setup script journal) =
      (.ok (), w) ∧ Resting setup (∀ s ∈ journal, s.isSound = true) [] w := by
  obtain ⟨b, hchange, hempty⟩ : ∃ b, Book.blank.change (.configure setup.config tiers)
      setup.config.startTime = .ok (1, b) ∧ b.purchases = .empty := ⟨_, rfl, rfl⟩
  have htells := Book.tells_of_change hconfig hspecs hchange
  have hrun := World.run_configure (w := stage setup script journal) hconfig hspecs hchange
  refine ⟨_, hrun, htells, fun hjournal => ?_⟩
  have hstage : World.Reliable { stage setup script journal with book := b } := by
    refine ⟨rfl, rfl, rfl, fun s hs => ?_⟩
    obtain rfl | hs := List.mem_cons.1 hs
    · rfl
    · exact hjournal s (Option.mem_toList.1 hs)
  obtain ⟨w, hperform, hreliable, -⟩ := hstage.perform
    (x := .emit (.configChanged "configure" 1)) rfl
  refine ⟨by rwa [hperform], ⟨[], .empty, fun id i n => ⟨nofun, ?_⟩⟩,
    List.forall_mem_nil _⟩
  rintro ⟨r, hr, -⟩
  change b.purchases.get? id = some r at hr
  simp [hempty] at hr

/-- A simulated sale that was finalized tells what was left. -/
theorem tells_of_finish (h : w.book.Tells setup rs) {unsold : Tokens} {w' : World}
    (hfinish : (finish setup).run w = (.ok unsold, w')) :
    w'.book.Tells setup rs ∧ unsold = w'.stats.tokensRemaining := by
  have hrun : World.run Sale.finalize (w.setTime setup.config.endTime) = (.ok unsold, w') := hfinish
  obtain ⟨c, b, hbegin, rfl, hbook⟩ := World.run_finalize_ok (congrArg Prod.fst hrun)
  rw [hrun] at hbook
  simp only at hbook
  obtain ⟨-, -, -, t, ht, rfl, rfl⟩ := Book.beginFinalize_ok hbegin
  have hterms : w.book.terms = some t := ht
  refine ⟨hbook ▸ h.of_sealed ⟨rfl, rfl, rfl, rfl, rfl, rfl⟩ rfl, ?_⟩
  rw [World.stats, hbook]
  simp [Book.stats, Book.endFinalize, World.setTime, hterms]

end Simulation

/-! ## the report -/

namespace SaleSetup

/-- A setup that is accepted can be configured. -/
theorem checked_of_ofConfig {config : Json} {setup : SaleSetup} (h : ofConfig config = .ok setup) :
    setup.config.fault? = none ∧ ∃ tiers, TierLedger.ofSpecs setup.tiers = .ok tiers := by
  obtain ⟨-, hfault, -, htiers, -⟩ := ofConfig_ok_iff.1 h
  exact ⟨hfault, htiers⟩

end SaleSetup

/-- The receipts of the purchases that were committed. -/
def SimulationReport.receipts (r : SimulationReport) : List PurchaseReceipt :=
  r.outcomes.filterMap Outcome.receipt?

/-- The report agrees with its script, its setup and itself. -/
structure SimulationReport.Reconciles (r : SimulationReport) (setup : SaleSetup)
    (script : Script) (finalized : Bool) : Prop where
  /-- There is one outcome for every purchase of the script, in its order. -/
  inOrder : r.outcomes.map Outcome.index = List.range script.purchases.length
  /-- What was committed is kept or goes back. -/
  serves : ∀ i receipt, .committed i receipt ∈ r.outcomes →
    ∃ p, script.purchases[i]? = some p ∧ receipt.Serves p.request
  distinct : (r.receipts.map PurchaseReceipt.purchaseId).Nodup
  tokensSold : r.stats.tokensSold.val =
    (r.receipts.map fun x => x.plan.result.tokensAllocated.val).sum
  unitsRaised : r.stats.unitsRaised.val =
    (r.receipts.map fun x => x.plan.result.unitsConsumed.val).sum
  purchaseCount : r.stats.purchaseCount = r.receipts.length
  fundsRaised : ∀ c, sumIn r.stats.fundsRaised c =
    ((r.receipts.filter fun x => x.plan.currency = c).map fun x =>
      x.plan.result.fundsConsumed.val).sum
  /-- All that the tiers offer is sold or left. -/
  offered : r.stats.tokensSold.val + r.stats.tokensRemaining.val =
    (setup.tiers.map fun s => s.totalCapacity.val).sum
  pendingSettlements : r.stats.pendingSettlements =
    (r.receipts.filter fun x => x.settlement ≠ .complete).length
  finalizedUnsold : r.finalizedUnsold = if finalized then some r.stats.tokensRemaining else none

namespace Simulation

variable {setup : SaleSetup} {rs : List PurchaseRecord} {w : World} {os : List Outcome}

/-- Where nothing on record is pending, nothing in the report is. -/
theorem complete_of_outcomes {ps : List ScriptedPurchase} {index : Nat}
    (h : Outcomes index ps os rs) (hrs : ∀ r ∈ rs, r.status = .complete) (unsold : Option Tokens)
    (w : World) : ∀ receipt ∈ (report os unsold w).receipts, receipt.settlement = .complete := by
  intro receipt hreceipt
  rw [SimulationReport.receipts, report, h.receipts] at hreceipt
  obtain ⟨r, hr, rfl⟩ := List.mem_map.1 hreceipt
  exact hrs r hr

/-- **A report made from a book that tells of its records reconciles with them.** -/
theorem reconciles_of_tells (h : w.book.Tells setup rs) {script : Script}
    (houtcomes : Outcomes 0 script.purchases os rs) {finalized : Bool} {unsold : Option Tokens}
    (hunsold : unsold = if finalized then some w.stats.tokensRemaining else none) :
    (report os unsold w).Reconciles setup script finalized := by
  have hsums : w.book.SumsOf rs := h.reconciles.congr h.samePurchases
  have hreceipts : (report os unsold w).receipts = rs.map fun r => r.receipt r.status :=
    houtcomes.receipts
  obtain ⟨t, ht, hsold, hoffered⟩ := h.tiers
  have hstats : w.stats.tokensSold = t.tiers.totalSold ∧
      w.stats.tokensRemaining = t.tiers.totalRemaining := by
    simp [World.stats, Book.stats, ht]
  exact {
    inOrder := by
      rw [List.range_eq_range']
      exact houtcomes.map_index
    serves := fun i receipt hi => by
      obtain ⟨k, p, rfl, hp⟩ := houtcomes.serves hi
      exact ⟨p, by simpa using hp⟩
    distinct := by
      rw [hreceipts, List.map_map]
      exact h.nodup
    tokensSold := by
      rw [hreceipts, List.map_map]
      exact (congrArg Quantity.val hstats.1).trans hsold
    unitsRaised := by
      rw [hreceipts, List.map_map]
      exact hsums.unitsRaised
    purchaseCount := by
      rw [hreceipts, List.length_map]
      exact h.size_purchases
    fundsRaised := fun c => by
      rw [hreceipts, List.filter_map, List.map_map]
      exact hsums.fundsRaised c
    offered := by
      rw [← hoffered, ← hstats.1, ← hstats.2]
      rfl
    pendingSettlements := by
      rw [hreceipts, List.filter_map, List.length_map]
      exact h.length_pendingRecords
    finalizedUnsold := hunsold }

section

variable {script : Script} {w w₀ w₁ w₂ : World}

/-- Without finalizing, the report is made after the last purchase. -/
theorem run_open (hconfigure : World.run (Sale.configure setup.config setup.tiers) w = (.ok (), w₀))
    (hplay : (playAll setup.rates 0 script.purchases).run w₀ = (os, w₁)) :
    (run setup script false).run w = (.ok (report os none w₁), w₁) := by
  unfold run
  exact (run_bind_of hconfigure).trans (run_bind_of hplay)

/-- With finalizing, it is made after that. -/
theorem run_finalized {unsold : Tokens}
    (hconfigure : World.run (Sale.configure setup.config setup.tiers) w = (.ok (), w₀))
    (hplay : (playAll setup.rates 0 script.purchases).run w₀ = (os, w₁))
    (hfinish : (finish setup).run w₁ = (.ok unsold, w₂)) :
    (run setup script true).run w = (.ok (report os (some unsold) w₂), w₂) := by
  unfold run
  exact (run_bind_of hconfigure).trans ((run_bind_of hplay).trans (run_bind_of hfinish))

/-- If finalizing fails, so does the simulation. -/
theorem run_not_finalized {cause : SaleError}
    (hconfigure : World.run (Sale.configure setup.config setup.tiers) w = (.ok (), w₀))
    (hplay : (playAll setup.rates 0 script.purchases).run w₀ = (os, w₁))
    (hfinish : (finish setup).run w₁ = (.error cause, w₂)) :
    (run setup script true).run w = (.error (.finalize cause), w₂) := by
  unfold run
  exact (run_bind_of hconfigure).trans ((run_bind_of hplay).trans (run_bind_of hfinish))

end

end Simulation

/-- All that was committed is settled. -/
structure SimulationReport.Settled (r : SimulationReport) : Prop where
  complete : ∀ receipt ∈ r.receipts, receipt.settlement = .complete
  pendingSettlements : r.stats.pendingSettlements = 0

/-- No purchase is counted as pending if none is told to be. -/
theorem SimulationReport.Reconciles.settled {r : SimulationReport} {setup : SaleSetup}
    {script : Script} {finalized : Bool} (h : r.Reconciles setup script finalized)
    (hcomplete : ∀ receipt ∈ r.receipts, receipt.settlement = .complete) : r.Settled where
  complete := hcomplete
  pendingSettlements := by
    rw [h.pendingSettlements, List.filter_eq_nil_iff.2 fun receipt hreceipt => by
      simp [hcomplete receipt hreceipt]]
    rfl

/-- **The report on a simulated sale reconciles**, for every setup that a
configuration makes and every script, in whatever order its times come and
whatever is asked for under whatever identities.  Without finalizing the sale
there is always a report; with it, whenever the sale can be finalized.  A
journal may be kept, and may refuse what it is told: what was committed then is
pending, and the report tells how much is.  Without a journal, and with one that
takes every event, all of it is settled. -/
theorem simulation_reconciles {config : Json} {setup : SaleSetup}
    (h : SaleSetup.ofConfig config = .ok setup) (script : Script) (journal : Option Sink) :
    let stage := Simulation.stage setup script journal
    (∃ r, ((Simulation.run setup script false).run stage).1 = .ok r) ∧
    ∀ finalized r, ((Simulation.run setup script finalized).run stage).1 = .ok r →
      r.Reconciles setup script finalized ∧ ((∀ s ∈ journal, s.isSound = true) → r.Settled) := by
  intro stage
  -- the parameters are set and the script is played, whatever comes of finalizing
  obtain ⟨hconfig, tiers, hspecs⟩ := SaleSetup.checked_of_ofConfig h
  obtain ⟨w, hconfigure, hrest⟩ := Simulation.resting_of_configure hconfig hspecs script journal
  obtain ⟨rs, houtcomes, hplayed⟩ :=
    Simulation.outcomes_of_playAll setup.rates 0 script.purchases hrest
  rw [List.nil_append] at hplayed
  generalize hplay : (Simulation.playAll setup.rates 0 script.purchases).run w = played at *
  obtain ⟨os, w₁⟩ := played
  refine ⟨⟨_, congrArg Prod.fst (Simulation.run_open hconfigure hplay)⟩, fun finalized r hr => ?_⟩
  have hsettled {unsold : Option Tokens} {w' : World}
      (h : (Simulation.report os unsold w').Reconciles setup script finalized)
      (hjournal : ∀ s ∈ journal, s.isSound = true) : (Simulation.report os unsold w').Settled :=
    h.settled (Simulation.complete_of_outcomes houtcomes (hplayed.settled hjournal).2.2 unsold w')
  cases finalized with
  | false =>
      rw [Simulation.run_open hconfigure hplay] at hr
      cases hr
      have hreconciles : (Simulation.report os none w₁).Reconciles setup script false :=
        Simulation.reconciles_of_tells hplayed.book houtcomes rfl
      exact ⟨hreconciles, hsettled hreconciles⟩
  | true =>
      cases hfinish : (Simulation.finish setup).run w₁ with
      | mk result w' =>
      cases result with
      | error cause =>
          rw [Simulation.run_not_finalized hconfigure hplay hfinish] at hr
          contradiction
      | ok unsold =>
          rw [Simulation.run_finalized hconfigure hplay hfinish] at hr
          cases hr
          obtain ⟨htells, hunsold⟩ := Simulation.tells_of_finish hplayed.book hfinish
          have hreconciles : (Simulation.report os (some unsold) w').Reconciles setup script true :=
            Simulation.reconciles_of_tells htells houtcomes (congrArg some hunsold)
          exact ⟨hreconciles, hsettled hreconciles⟩

/-- Five hundred tokens, one unit each, on sale in March. -/
def Sample.document : Json :=
  .obj [("rates", .obj [("USD", .int 1)]),
    ("sale", .obj [("accepted_currencies", .arr [.str "USD"]),
      ("end_time", .str "2026-04-01T00:00:00Z"), ("non_accredited_limit", .str "100"),
      ("sale_id", .str "8a1d2c3b-4e5f-4a6b-8c7d-9e0f1a2b3c4d"),
      ("settlement_destination", .str "escrow:sim"),
      ("start_time", .str "2026-03-01T00:00:00Z"), ("treasury", .str "treasury")]),
    ("tiers", .arr [.obj [("capacity", .str "500"), ("price", .str "1")]])]

/-- A purchase in the second hour of the sale and one in the first, then the
former once more under its identity, and one before the sale. -/
def Sample.script : Script where
  investors := [⟨⟨"alice"⟩, .accredited⟩, ⟨⟨"bob"⟩, .nonAccredited⟩]
  purchases :=
    [⟨Sample.at 1772326800, Sample.request⟩,
      ⟨Sample.at 1772323200, { Sample.request with
        purchaseId := none, buyer := ⟨"bob"⟩, amount := ⟨150, by decide⟩ }⟩,
      ⟨Sample.at 1772323200, Sample.request⟩,
      ⟨Sample.at 1769904000, { Sample.request with purchaseId := none }⟩]

/-- Whether a script has a report that is as expected, with a journal that may
be kept. -/
def Sample.reports (config : Json) (script : Script) (journal : SaleSetup → Option Sink)
    (finalize : Bool) (expected : SimulationReport → Bool) : Bool :=
  match SaleSetup.ofConfig config with
  | .error _ => false
  | .ok setup =>
    match ((Simulation.run setup script finalize).run
        (Simulation.stage setup script (journal setup))).1 with
    | .error _ => false
    | .ok r => expected r

/-- A report that was computed is that of a setup and a run. -/
theorem Sample.exists_report (config : Json) (script : Script)
    (journal : SaleSetup → Option Sink) (finalize : Bool) (expected : SimulationReport → Bool)
    (h : reports config script journal finalize expected = true) :
    ∃ setup r, SaleSetup.ofConfig config = .ok setup ∧
      ((Simulation.run setup script finalize).run
        (Simulation.stage setup script (journal setup))).1 = .ok r ∧ expected r = true := by
  rw [reports] at h
  cases hsetup : SaleSetup.ofConfig config with
  | error e => simp [hsetup] at h
  | ok setup =>
      rw [hsetup] at h
      simp only at h
      cases hrun : ((Simulation.run setup script finalize).run
          (Simulation.stage setup script (journal setup))).1 with
      | error e => simp [hrun] at h
      | ok r =>
          rw [hrun] at h
          exact ⟨setup, r, rfl, hrun, h⟩

/-- A journal that takes its first entry, and nothing of the second one. -/
def Sample.fullAtSecond (setup : SaleSetup) : Sink :=
  .journal (.fresh setup.config.saleId) "" ⟨[none, some ⟨"disk full", 0⟩], none⟩

/-- How the purchases of a report stand, one by one and as a count. -/
def Sample.settlements (r : SimulationReport) : List SettlementStatus × Nat :=
  (r.receipts.map PurchaseReceipt.settlement, r.stats.pendingSettlements)

/-- Two of the four purchases are committed, for thirty tokens and for the
hundred that the limit of the buyer leaves; the others go to the treasury.  With
a journal that refuses the second event, the first purchase is pending. -/
theorem simulation_reconciles_going_back :
    (∃ setup r, SaleSetup.ofConfig Sample.document = .ok setup ∧
      ((Simulation.run setup Sample.script true).run
        (Simulation.stage setup Sample.script none)).1 = .ok r ∧
      (r.receipts.length, r.stats.tokensSold.val, r.finalizedUnsold.map Quantity.val) =
        (2, 130, some 370) ∧
      r.Reconciles setup Sample.script true ∧ r.Settled) ∧
    ∃ setup r, SaleSetup.ofConfig Sample.document = .ok setup ∧
      ((Simulation.run setup Sample.script false).run
        (Simulation.stage setup Sample.script (some (Sample.fullAtSecond setup)))).1 = .ok r ∧
      Sample.settlements r = ([.pending "journal failed: disk full", .complete], 1) ∧
      r.Reconciles setup Sample.script false := by
  constructor
  · obtain ⟨setup, r, hsetup, hr, hexpected⟩ := Sample.exists_report Sample.document
      Sample.script (fun _ => none) true
      (fun r => (r.receipts.length, r.stats.tokensSold.val, r.finalizedUnsold.map Quantity.val) =
        (2, 130, some 370)) (by decide +kernel)
    obtain ⟨hreconciles, hsettled⟩ :=
      (simulation_reconciles hsetup Sample.script none).2 true r hr
    exact ⟨setup, r, hsetup, hr, of_decide_eq_true hexpected, hreconciles, hsettled (by simp)⟩
  · obtain ⟨setup, r, hsetup, hr, hexpected⟩ := Sample.exists_report Sample.document
      Sample.script (fun setup => some (Sample.fullAtSecond setup)) false
      (fun r => Sample.settlements r = ([.pending "journal failed: disk full", .complete], 1))
      (by decide +kernel)
    exact ⟨setup, r, hsetup, hr, of_decide_eq_true hexpected,
      ((simulation_reconciles hsetup Sample.script _).2 false r hr).1⟩

/-- The path of a folder that is not there is opened as a journal, and no entry
can be written to it: what is committed is pending, although there is a report. -/
theorem pending_under_missing_folder : ∃ setup sink r,
    SaleSetup.ofConfig Sample.document = .ok setup ∧
    Command.openJournal .empty "out/" setup.config.saleId = .ok sink ∧
    ((Simulation.run setup Sample.script false).run
      (Simulation.stage setup Sample.script (some sink))).1 = .ok r ∧
    (∃ receipt ∈ r.receipts, receipt.settlement ≠ .complete) ∧
    r.stats.pendingSettlements = 2 := by
  have hlook : Folder.empty.look "out/" = .missingFolder := by decide +kernel
  obtain ⟨setup, r, hsetup, hr, hexpected⟩ := Sample.exists_report Sample.document Sample.script
    (fun setup => some (.journal (.fresh setup.config.saleId) ""
      (.closed "open journal \"out/\": Is a directory (os error 21)"))) false
    (fun r => (∃ receipt ∈ r.receipts, receipt.settlement ≠ .complete) ∧
      r.stats.pendingSettlements = 2) (by decide +kernel)
  refine ⟨setup, _, r, hsetup, ?_, hr, of_decide_eq_true hexpected⟩
  rw [Command.openJournal, hlook]
  rfl

end TokenSale
