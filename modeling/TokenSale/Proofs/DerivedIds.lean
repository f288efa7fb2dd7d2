import Mathlib.Data.Finset.Card
import Mathlib.Order.Interval.Finset.Nat
import TokenSale.Proofs.Totals

/-!
# TokenSale.Proofs.DerivedIds

The identities under which purchases are filed.  A caller may choose one, and
may choose one that would be derived later; the search for a derived identity
passes over all that are in use, and ends because there are finitely many.

* `Book.freshId?_ok`, `freshId?_none` — what the search finds, and what it has
  passed over when it finds nothing;
* `Book.exists_freshId?` — it finds something, unless two numbers among those
  that it tries share an identity;
* `Book.purchaseIdOf_derived` — so a purchase without an identity is filed under
  the first that is free;
* `Book.commitPurchase_duplicate_iff` — a purchase is refused as a duplicate
  exactly if its identity is on record.
-/

namespace TokenSale

namespace Directory

variable {κ α : Type} [DecidableEq κ] [OrderedKey κ]

/-- No more keys are in use than there are entries. -/
theorem card_le_size {d : Directory κ α} {s : Finset κ} (h : ∀ k ∈ s, d.contains k = true) :
    s.card ≤ d.size := by
  have hsub : s ⊆ d.keys.toFinset := fun k hk =>
    List.mem_toFinset.2 (contains_iff_mem_keys.1 (h k hk))
  calc s.card ≤ d.keys.toFinset.card := Finset.card_le_card hsub
    _ ≤ d.keys.length := d.keys.toFinset_card_le
    _ = d.size := by rw [keys, List.length_map, size]

end Directory

namespace Book

/-! ## the search -/

/-- The number whose derived identity is the first from `start` on that is free. -/
structure FirstFree (saleId : Uuid) (inUse : Uuid → Bool) (start k : Nat) : Prop where
  start_le : start ≤ k
  free : inUse (derivedId saleId k) = false
  passed : ∀ j, start ≤ j → j < k → inUse (derivedId saleId j) = true

variable {saleId : Uuid} {inUse : Uuid → Bool} {fuel n : Nat}

/-- A number that is passed over is passed for good. -/
theorem FirstFree.pred {k : Nat} (h : FirstFree saleId inUse (n + 1) k)
    (hn : inUse (derivedId saleId n) = true) : FirstFree saleId inUse n k := by
  refine ⟨Nat.le_of_succ_le h.start_le, h.free, fun j hj hlt => ?_⟩
  obtain rfl | hj := Nat.eq_or_lt_of_le hj
  · exact hn
  · exact h.passed j hj hlt

/-- A number whose identity is free is the first such from itself on. -/
theorem firstFree_self (hn : inUse (derivedId saleId n) = false) : FirstFree saleId inUse n n :=
  ⟨Nat.le_refl n, hn, fun _ hj hlt => absurd hlt (Nat.not_lt_of_le hj)⟩

/-- There is only one first free number. -/
theorem FirstFree.unique {k k' : Nat} (h : FirstFree saleId inUse n k)
    (h' : FirstFree saleId inUse n k') : k = k' := by
  obtain hlt | heq | hlt := Nat.lt_trichotomy k k'
  · exact absurd (h'.passed k h.start_le hlt) (by simp [h.free])
  · exact heq
  · exact absurd (h.passed k' h'.start_le hlt) (by simp [h'.free])

/-- What the search finds is the first free identity. -/
theorem freshId?_ok {found : Uuid × Nat} (h : freshId? saleId inUse fuel n = some found) :
    ∃ k, FirstFree saleId inUse n k ∧ k ≤ n + fuel ∧ found = (derivedId saleId k, k + 1) := by
  induction fuel generalizing n with
  | zero =>
      unfold freshId? at h
      split at h
      · contradiction
      next hn =>
        exact ⟨n, firstFree_self (by simpa using hn), Nat.le_refl n, (Option.some.inj h).symm⟩
  | succ fuel ih =>
      unfold freshId? at h
      split at h
      next hn =>
        obtain ⟨k, hk, hle, hfound⟩ := ih h
        exact ⟨k, hk.pred hn, by omega, hfound⟩
      next hn =>
        exact ⟨n, firstFree_self (by simpa using hn), by omega, (Option.some.inj h).symm⟩

/-- A search that finds nothing has passed over that many identities in use. -/
theorem freshId?_none (h : freshId? saleId inUse fuel n = none) :
    ∀ j ∈ Set.Icc n (n + fuel), inUse (derivedId saleId j) = true := by
  induction fuel generalizing n with
  | zero =>
      unfold freshId? at h
      split at h
      next hn =>
        rintro j ⟨hj, hj'⟩
        obtain rfl : j = n := by omega
        exact hn
      · contradiction
  | succ fuel ih =>
      unfold freshId? at h
      split at h
      next hn =>
        rintro j ⟨hj, hj'⟩
        obtain rfl | hlt := Nat.eq_or_lt_of_le hj
        · exact hn
        · exact ih h j ⟨hlt, by omega⟩
      · contradiction

/-- Among one number more than there are entries, one has a free identity. -/
theorem exists_freshId? {α : Type} {d : Directory Uuid α}
    (h : Set.InjOn (derivedId saleId) (Set.Icc n (n + d.size))) :
    ∃ found, freshId? saleId d.contains d.size n = some found := by
  cases hfresh : freshId? saleId d.contains d.size n with
  | some found => exact ⟨found, rfl⟩
  | none =>
      have hcard : ((Finset.Icc n (n + d.size)).image (derivedId saleId)).card = d.size + 1 := by
        rw [Finset.card_image_of_injOn (by simpa using h), Nat.card_Icc]
        omega
      have hle : ((Finset.Icc n (n + d.size)).image (derivedId saleId)).card ≤ d.size := by
        refine Directory.card_le_size fun id hid => ?_
        obtain ⟨j, hj, rfl⟩ := Finset.mem_image.1 hid
        exact freshId?_none hfresh j (by simpa using hj)
      omega

variable {b b' : Book} {r : PurchaseRequest} {checked : Checked} {now : Instant}
  {record : PurchaseRecord}

/-- The numbers that a search among the purchases on record may try. -/
def candidates (b : Book) : Set Nat := Set.Icc b.nextSeq (b.nextSeq + b.purchases.size)

/-- A request without an identity gets the first derived one that is free. -/
theorem purchaseIdOf_derived (hr : r.purchaseId = none)
    (h : Set.InjOn (derivedId saleId) b.candidates) :
    ∃ k ∈ b.candidates, FirstFree saleId b.purchases.contains b.nextSeq k ∧
      b.purchaseIdOf r saleId = .ok (derivedId saleId k, k + 1) := by
  obtain ⟨found, hfound⟩ := exists_freshId? h
  obtain ⟨k, hk, hle, rfl⟩ := freshId?_ok hfound
  refine ⟨k, ⟨hk.start_le, hle⟩, hk, ?_⟩
  simp only [purchaseIdOf, hr, hfound]

/-! ## duplicates -/

/-- A request under an identity in use is refused as a duplicate. -/
theorem commitPurchase_duplicate {id : Uuid} (hr : r.purchaseId = some id)
    (hid : b.purchases.contains id = true) :
    b.commitPurchase r checked now = .error (.duplicatePurchase id) := by
  simp only [commitPurchase, hr, Option.filter_some, hid, if_true]

theorem checkOpen_ne_duplicate {id : Uuid} : b.checkOpen now ≠ .error (.duplicatePurchase id) := by
  unfold checkOpen
  split <;> split <;> simp

theorem ofAllocation_ne_duplicate (e : AllocationError) (id : Uuid) :
    SaleError.ofAllocation e ≠ .duplicatePurchase id := by
  unfold SaleError.ofAllocation
  split <;> simp

/-- Planning never finds a duplicate. -/
theorem plan_ne_duplicate {id : Uuid} : b.plan r checked now ≠ .error (.duplicatePurchase id) := by
  intro h
  obtain hopen | h | h | ⟨cause, h⟩ | ⟨t, cause, -, h⟩ := plan_error_cases h
  · exact checkOpen_ne_duplicate hopen
  · contradiction
  · contradiction
  · contradiction
  · exact ofAllocation_ne_duplicate cause id h.symm

/-- Recording a plan finds no duplicate of a given identity: that was looked up
before the plan was made. -/
theorem recordPlan_ne_duplicate {plan : AllocationPlan} {given id : Uuid}
    (hr : r.purchaseId = some given) :
    b.recordPlan r checked now plan ≠ .error (.duplicatePurchase id) := by
  unfold recordPlan purchaseIdOf
  simp only [hr]
  split
  · simp
  split
  · simp
  split
  · simp
  split
  · simp
  split
  · next e _ => simpa using ofAllocation_ne_duplicate e id
  · simp

/-- A purchase is refused as a duplicate exactly if its identity is on record. -/
theorem commitPurchase_duplicate_iff {id : Uuid} (hr : r.purchaseId = some id) :
    b.commitPurchase r checked now = .error (.duplicatePurchase id) ↔
      b.purchases.contains id = true := by
  refine ⟨fun h => ?_, commitPurchase_duplicate hr⟩
  by_contra hfree
  unfold commitPurchase at h
  simp only [hr, Option.filter_some, hfree, if_false] at h
  split at h
  next e hplan =>
    cases h
    exact plan_ne_duplicate hplan
  · exact recordPlan_ne_duplicate hr h

/-- A purchase without an identity is filed under the first derived one that is
free, and the next search goes on behind it. -/
theorem derived_of_commitPurchase (hr : r.purchaseId = none)
    (h : b.commitPurchase r checked now = .ok (record, b')) :
    ∃ t k, b.terms = some t ∧ FirstFree t.config.saleId b.purchases.contains b.nextSeq k ∧
      record.purchaseId = derivedId t.config.saleId k ∧ b'.nextSeq = k + 1 := by
  obtain ⟨t, _, _, _, _, _, id, nextSeq, ht, -, -, -, -, hid, hrecord, rfl⟩ :=
    recordPlan_ok (commitPurchase_ok h).2.1
  refine ⟨t, ?_⟩
  unfold purchaseIdOf at hid
  simp only [hr] at hid
  split at hid
  next found hfound =>
    obtain ⟨k, hk, -, rfl⟩ := freshId?_ok hfound
    simp only [Except.ok.injEq, Prod.mk.injEq] at hid
    refine ⟨k, ht, hk, ?_, hid.2.symm⟩
    rw [hrecord, hid.1]
    rfl
  · contradiction

end Book

end TokenSale
