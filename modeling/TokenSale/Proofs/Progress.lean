import Mathlib.Data.List.Count
import TokenSale.Sale.Settlement

/-!
# TokenSale.Proofs.Progress

What the progress of a settlement says about the steps that have landed.  The
steps that a progress leaves outstanding are always the end of the script, so
what has landed is the beginning of it.

* `outstandingAt_mark` — a step that lands is the first outstanding one no more;
* `Reached`, `Stored` — progress during an attempt and between attempts;
* `Stored.describes` — flag by flag, which steps have landed;
* `Stored.isComplete_iff` — a settlement is complete once nothing is outstanding.
-/

namespace TokenSale

namespace PurchaseRecord

/-- The steps of a purchase that have not landed once its progress is `p`. -/
def outstandingAt (r : PurchaseRecord) (p : SettlementProgress) :
    List SettlementStep := { r with settlement := p }.outstanding

variable {r : PurchaseRecord} {p : SettlementProgress} {s : SettlementStep}
  {rest landed : List SettlementStep}

/-- What is outstanding, as one list in the order of the script. -/
theorem outstandingAt_eq (r : PurchaseRecord) (p : SettlementProgress) : r.outstandingAt p =
    (r.plan.fills.drop p.fillsRecorded).map .recordFill ++
      ((if p.issued then [] else [.issue]) ++ ((if p.forwarded then [] else [.forward]) ++
        ((if p.fundsRecorded then [] else [.recordFunds]) ++
          if r.hasRefund then
            (if p.refunded then [] else [.refund]) ++
              (if p.refundRecorded then [] else [.recordRefund])
          else []))) := by
  simp only [outstandingAt, outstanding, List.append_assoc]
  rfl

/-- Nothing is outstanding exactly if every flag that matters is set. -/
theorem outstandingAt_eq_nil_iff : r.outstandingAt p = [] ↔
    r.plan.fills.length ≤ p.fillsRecorded ∧ p.issued = true ∧ p.forwarded = true ∧
      p.fundsRecorded = true ∧
      (r.hasRefund = true → p.refunded = true ∧ p.refundRecorded = true) := by
  have hflag (flag : Bool) (s : SettlementStep) :
      (if flag = true then [] else [s]) = [] ↔ flag = true := by cases flag <;> simp
  rw [outstandingAt_eq]
  cases r.hasRefund <;> simp [hflag]

/-- Marking the first outstanding step leaves the others outstanding. -/
theorem outstandingAt_mark (h : r.outstandingAt p = s :: rest) :
    r.outstandingAt (p.mark s) = rest := by
  rw [outstandingAt_eq] at h ⊢
  cases hfills : r.plan.fills.drop p.fillsRecorded with
  | cons f fs =>
      simp only [hfills, List.map_cons, List.cons_append, List.cons.injEq] at h
      obtain ⟨rfl, rfl⟩ := h
      have hfs : r.plan.fills.drop (p.fillsRecorded + 1) = fs := by
        rw [← List.tail_drop, hfills, List.tail_cons]
      simp only [SettlementProgress.mark, hfs]
      rfl
  | nil =>
      -- no fill is left, so the step is the first whose flag is not set
      simp only [hfills, List.map_nil, List.nil_append] at h
      cases hi : p.issued with
      | false =>
          obtain ⟨rfl, rfl⟩ := List.cons.inj (by simpa [hi] using h)
          simp only [SettlementProgress.mark, hfills, List.map_nil, List.nil_append, if_true]
          rfl
      | true => ?_
      cases hf : p.forwarded with
      | false =>
          obtain ⟨rfl, rfl⟩ := List.cons.inj (by simpa [hi, hf] using h)
          simp [SettlementProgress.mark, hfills, hi]
      | true => ?_
      cases hr : p.fundsRecorded with
      | false =>
          obtain ⟨rfl, rfl⟩ := List.cons.inj (by simpa [hi, hf, hr] using h)
          simp [SettlementProgress.mark, hfills, hi, hf]
      | true => ?_
      cases hd : r.hasRefund with
      | false => simp [hi, hf, hr, hd] at h
      | true => ?_
      cases hb : p.refunded with
      | false =>
          obtain ⟨rfl, rfl⟩ := List.cons.inj (by simpa [hi, hf, hr, hd, hb] using h)
          simp [SettlementProgress.mark, hfills, hi, hf, hr]
      | true => ?_
      cases hc : p.refundRecorded with
      | false =>
          obtain ⟨rfl, rfl⟩ := List.cons.inj (by simpa [hi, hf, hr, hd, hb, hc] using h)
          simp [SettlementProgress.mark, hfills, hi, hf, hr, hb]
      | true => simp [hi, hf, hr, hd, hb, hc] at h

/-- With all that is outstanding done, nothing is. -/
theorem outstandingAt_foldl {steps : List SettlementStep} (h : r.outstandingAt p = steps) :
    r.outstandingAt (steps.foldl SettlementProgress.mark p) = [] := by
  induction steps generalizing p with
  | nil => exact h
  | cons s rest ih => exact ih (outstandingAt_mark h)

/-- Once nothing is outstanding, closing completes the settlement. -/
theorem isComplete_close (h : r.outstandingAt p = []) :
    p.close.isComplete r.plan.fills.length = true := by
  have hflags := outstandingAt_eq_nil_iff.1 h
  simp [SettlementProgress.isComplete, SettlementProgress.close, hflags]

/-- A settlement that is complete leaves nothing outstanding. -/
theorem outstandingAt_of_isComplete (h : p.isComplete r.plan.fills.length = true) :
    r.outstandingAt p = [] := by
  simp only [SettlementProgress.isComplete, Bool.and_eq_true, decide_eq_true_eq] at h
  obtain ⟨⟨⟨⟨⟨hfills, hissued⟩, hforwarded⟩, hfunds⟩, hrefunded⟩, hrecorded⟩ := h
  exact outstandingAt_eq_nil_iff.2
    ⟨hfills, hissued, hforwarded, hfunds, fun _ => ⟨hrefunded, hrecorded⟩⟩

/-- A purchase is not settled before its first attempt. -/
theorem isSettled_of_initial (h : r.settlement = .initial) : r.isSettled = false := by
  simp [isSettled, h, SettlementProgress.isComplete, SettlementProgress.initial]

/-! ## during an attempt -/

/-- An attempt has come to `p`, and the steps `landed` have landed. -/
structure Reached (r : PurchaseRecord) (p : SettlementProgress) (landed : List SettlementStep) :
    Prop where
  script : r.script = landed ++ r.outstandingAt p
  fills : p.fillsRecorded ≤ r.plan.fills.length
  refund : r.hasRefund = false → p.refunded = false ∧ p.refundRecorded = false

/-- A fill that is outstanding has not been counted. -/
theorem fillsRecorded_lt {f : Fill} (h : r.outstandingAt p = .recordFill f :: rest) :
    p.fillsRecorded < r.plan.fills.length := by
  by_contra hle
  rw [outstandingAt_eq, List.drop_eq_nil_of_le (Nat.le_of_not_lt hle)] at h
  grind

/-- A refund is only outstanding where there is one. -/
theorem hasRefund_of_outstanding (h : r.outstandingAt p = s :: rest)
    (hs : s = .refund ∨ s = .recordRefund) : r.hasRefund = true := by
  have hmem : s ∈ r.outstandingAt p := h ▸ List.mem_cons_self
  rw [outstandingAt_eq] at hmem
  grind

/-- **Doing the first step that is outstanding brings the settlement one step
further.** -/
theorem Reached.mark (hr : r.Reached p landed) (h : r.outstandingAt p = s :: rest) :
    r.Reached (p.mark s) (landed ++ [s]) := by
  refine ⟨?_, ?_, fun hnone => ?_⟩
  · rw [hr.script, outstandingAt_mark h, h, List.append_assoc]
    rfl
  · cases s with
    | recordFill f => exact fillsRecorded_lt h
    | _ => exact hr.fills
  · cases s with
    | refund => simp [hasRefund_of_outstanding h (.inl rfl)] at hnone
    | recordRefund => simp [hasRefund_of_outstanding h (.inr rfl)] at hnone
    | _ => exact hr.refund hnone

/-! ## between attempts -/

/-- The progress `p` on record between attempts, the steps `landed` having landed. -/
structure Stored (r : PurchaseRecord) (p : SettlementProgress) (landed : List SettlementStep) :
    Prop where
  script : r.script = landed ++ r.outstandingAt p
  fills : p.fillsRecorded ≤ r.plan.fills.length
  refund : r.hasRefund = false →
    (p.refunded = true ↔ r.outstandingAt p = []) ∧
      (p.refundRecorded = true ↔ r.outstandingAt p = [])

theorem script_ne_nil (r : PurchaseRecord) : r.script ≠ [] := by
  simp [script]

theorem outstandingAt_initial (r : PurchaseRecord) : r.outstandingAt .initial = r.script := by
  rw [outstandingAt_eq]
  simp [script, SettlementProgress.initial]

theorem stored_initial (r : PurchaseRecord) : r.Stored .initial [] := by
  refine ⟨by rw [outstandingAt_initial, List.nil_append], Nat.zero_le _, fun _ => ?_⟩
  rw [outstandingAt_initial]
  simp [script_ne_nil, SettlementProgress.initial]

/-- What an attempt has reached may be stored if something is left to do. -/
theorem Reached.stored (hr : r.Reached p landed) (h : r.outstandingAt p ≠ []) :
    r.Stored p landed := by
  refine ⟨hr.script, hr.fills, fun hnone => ?_⟩
  obtain ⟨hrefunded, hrecorded⟩ := hr.refund hnone
  simp [hrefunded, hrecorded, h]

/-- An attempt goes on from what was stored. -/
theorem Stored.reached (hs : r.Stored p landed) (h : r.outstandingAt p ≠ []) :
    r.Reached p landed := by
  refine ⟨hs.script, hs.fills, fun hnone => ?_⟩
  obtain ⟨hrefunded, hrecorded⟩ := hs.refund hnone
  simpa [h] using And.intro hrefunded hrecorded

/-- Closing a settlement leaves nothing outstanding. -/
theorem outstandingAt_close (h : r.outstandingAt p = []) : r.outstandingAt p.close = [] := by
  rw [outstandingAt_eq_nil_iff] at h ⊢
  exact ⟨h.1, h.2.1, h.2.2.1, h.2.2.2.1, fun _ => ⟨rfl, rfl⟩⟩

/-- A settlement with nothing left to do is stored as closed. -/
theorem Reached.close (hr : r.Reached p landed) (h : r.outstandingAt p = []) :
    r.Stored p.close landed := by
  have hclose := outstandingAt_close h
  refine ⟨?_, hr.fills, fun _ => ?_⟩
  · rw [hclose, ← h]
    exact hr.script
  · rw [hclose]
    simp [SettlementProgress.close]

/-- **Nothing is outstanding exactly if the whole script has landed.** -/
theorem Stored.outstandingAt_eq_nil_iff (hs : r.Stored p landed) :
    r.outstandingAt p = [] ↔ landed = r.script := by
  rw [hs.script]
  simp

/-- A settlement is complete once the whole script has landed. -/
theorem Stored.isComplete_iff (hs : r.Stored p landed) :
    p.isComplete r.plan.fills.length = true ↔ landed = r.script := by
  have hrefund := hs.refund
  rw [← hs.outstandingAt_eq_nil_iff]
  cases hd : r.hasRefund with
  | true =>
      rw [PurchaseRecord.outstandingAt_eq_nil_iff, hd]
      simp [SettlementProgress.isComplete, and_assoc]
  | false =>
      obtain ⟨hrefunded, hrecorded⟩ := hrefund hd
      constructor
      · intro h
        rw [SettlementProgress.isComplete] at h
        simp only [Bool.and_eq_true] at h
        exact hrecorded.1 h.2
      · intro h
        have hflags := PurchaseRecord.outstandingAt_eq_nil_iff.1 h
        simp [SettlementProgress.isComplete, hflags, hrefunded.2 h, hrecorded.2 h]

end PurchaseRecord

/-! ## flag by flag -/

/-- The step tells of a fill. -/
def SettlementStep.isFill : SettlementStep → Bool
  | recordFill _ => true
  | _ => false

/-- The flags say which steps of a purchase are among `landed`; without a refund
its flags are set once everything has landed. -/
structure SettlementProgress.Describes (p : SettlementProgress) (r : PurchaseRecord)
    (landed : List SettlementStep) : Prop where
  fillsRecorded : p.fillsRecorded = landed.countP SettlementStep.isFill
  issued : p.issued = true ↔ .issue ∈ landed
  forwarded : p.forwarded = true ↔ .forward ∈ landed
  fundsRecorded : p.fundsRecorded = true ↔ .recordFunds ∈ landed
  refunded : p.refunded = true ↔ .refund ∈ landed ∨ r.hasRefund = false ∧ landed = r.script
  refundRecorded : p.refundRecorded = true ↔
    .recordRefund ∈ landed ∨ r.hasRefund = false ∧ landed = r.script

namespace PurchaseRecord

variable {r : PurchaseRecord} {p : SettlementProgress} {landed : List SettlementStep}

/-- The fills outstanding are those not yet counted. -/
theorem countP_isFill_outstandingAt (r : PurchaseRecord) (p : SettlementProgress) :
    (r.outstandingAt p).countP SettlementStep.isFill = r.plan.fills.length - p.fillsRecorded := by
  have hfills (fs : List Fill) :
      (fs.map SettlementStep.recordFill).countP SettlementStep.isFill = fs.length := by
    simp [List.countP_map, Function.comp_def, SettlementStep.isFill]
  rw [outstandingAt_eq]
  cases r.hasRefund <;>
    simp [-List.map_drop, List.countP_append, SettlementStep.isFill, hfills]

/-- A step that tells of no fill stands in the script once at most. -/
theorem count_script_le {s : SettlementStep} (hs : s.isFill = false) : r.script.count s ≤ 1 := by
  have hfills : (r.plan.fills.map SettlementStep.recordFill).count s = 0 := by
    rw [List.count_eq_zero, List.mem_map]
    rintro ⟨f, -, rfl⟩
    contradiction
  rw [script, List.count_append, List.count_append, hfills]
  cases r.hasRefund <;> cases s <;> simp_all [SettlementStep.isFill]

/-- A step of the script has landed exactly if it is not outstanding. -/
theorem Stored.mem_iff (hs : r.Stored p landed) {s : SettlementStep} (hfill : s.isFill = false)
    (hscript : s ∈ r.script) : s ∈ landed ↔ s ∉ r.outstandingAt p := by
  have hle := count_script_le (r := r) hfill
  have hpos : 0 < r.script.count s := List.count_pos_iff.2 hscript
  rw [hs.script, List.count_append] at hle hpos
  rw [← List.count_pos_iff, ← List.count_eq_zero]
  omega

theorem Stored.not_mem (hs : r.Stored p landed) {s : SettlementStep} (hscript : s ∉ r.script) :
    s ∉ landed := by
  rw [hs.script, List.mem_append, not_or] at hscript
  exact hscript.1

/-- **The progress on record tells which steps have landed.** -/
theorem Stored.describes (hs : r.Stored p landed) : p.Describes r landed := by
  have hfills : r.plan.fills.length =
      landed.countP SettlementStep.isFill + (r.plan.fills.length - p.fillsRecorded) := by
    have hcount := congrArg (List.countP SettlementStep.isFill) hs.script
    rw [List.countP_append, ← outstandingAt_initial, countP_isFill_outstandingAt,
      countP_isFill_outstandingAt] at hcount
    exact hcount
  have hle := hs.fills
  have hflag {s : SettlementStep} (hfill : s.isFill = false) (hscript : s ∈ r.script)
      {flag : Bool} (hflag : s ∈ r.outstandingAt p ↔ flag = false) : flag = true ↔ s ∈ landed := by
    rw [hs.mem_iff hfill hscript, hflag, Bool.not_eq_false]
  refine ⟨by omega, ?_, ?_, ?_, ?_, ?_⟩
  · refine hflag (s := .issue) rfl (by simp [PurchaseRecord.script]) ?_
    cases hd : r.hasRefund <;> simp [-List.map_drop, outstandingAt_eq, hd]
  · refine hflag (s := .forward) rfl (by simp [PurchaseRecord.script]) ?_
    cases hd : r.hasRefund <;> simp [-List.map_drop, outstandingAt_eq, hd]
  · refine hflag (s := .recordFunds) rfl (by simp [PurchaseRecord.script]) ?_
    cases hd : r.hasRefund <;> simp [-List.map_drop, outstandingAt_eq, hd]
  · cases hd : r.hasRefund with
    | true =>
        rw [hflag (s := .refund) rfl (by simp [PurchaseRecord.script, hd])
          (by simp [-List.map_drop, outstandingAt_eq, hd])]
        simp
    | false =>
        rw [(hs.refund hd).1, hs.outstandingAt_eq_nil_iff]
        simp [hs.not_mem (show .refund ∉ r.script by simp [PurchaseRecord.script, hd])]
  · cases hd : r.hasRefund with
    | true =>
        rw [hflag (s := .recordRefund) rfl (by simp [PurchaseRecord.script, hd])
          (by simp [-List.map_drop, outstandingAt_eq, hd])]
        simp
    | false =>
        rw [(hs.refund hd).2, hs.outstandingAt_eq_nil_iff]
        simp [hs.not_mem (show .recordRefund ∉ r.script by simp [PurchaseRecord.script, hd])]

end PurchaseRecord

end TokenSale
