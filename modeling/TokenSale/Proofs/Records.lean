import TokenSale.Proofs.Book
import TokenSale.Proofs.Entries

/-!
# TokenSale.Proofs.Records

The purchases on record.  A new one is added under an identity of its own;
settling one changes nothing of it but how far its settlement has come.

* `Directory.values_insert_perm`, `Directory.map_entries_insert` — filing under
  a new key, and under one that is in use;
* `Book.filed` — all purchases as they were filed;
* `filed_of_beginSettlement`, `filed_of_endSettlement` — settlement keeps them.
-/

namespace TokenSale

namespace Directory

variable {κ α β : Type} [DecidableEq κ] [OrderedKey κ]

/-- An entry under a new key adds its value, up to the order. -/
theorem values_insert_perm {d : Directory κ α} {k : κ} (h : d.get? k = none) (a : α) :
    (d.insert k a).values.Perm (a :: d.values) :=
  (place_perm h).map Prod.snd

/-- A value replaced by one that looks the same leaves all that is seen of the
entries. -/
theorem map_entries_insert {d : Directory κ α} {k : κ} {a a' : α} {g : κ × α → β}
    (h : d.get? k = some a) (hg : g (k, a') = g (k, a)) :
    (d.insert k a').entries.map g = d.entries.map g :=
  map_place d.ordered h hg

end Directory

/-- A record as it was filed, however far its settlement has come since. -/
def PurchaseRecord.filed (r : PurchaseRecord) : PurchaseRecord := { r with settlement := .initial }

namespace Book

variable {b b' : Book} {now : Instant}

/-- All purchases as they were filed. -/
def filed (b : Book) : List (Uuid × PurchaseRecord) :=
  b.purchases.entries.map fun e => (e.1, e.2.filed)

/-- The filed part of the records, in their order. -/
theorem values_map_filed (b : Book) : b.purchases.values.map .filed = b.filed.map Prod.snd := by
  simp [Directory.values, filed]

/-- A purchase is filed under an identity that was not in use. -/
theorem purchases_of_commitPurchase {r : PurchaseRequest} {checked : Checked}
    {record : PurchaseRecord} (h : b.commitPurchase r checked now = .ok (record, b')) :
    b.purchases.get? record.purchaseId = none ∧ record.settlement = .initial ∧
      b'.purchases = b.purchases.insert record.purchaseId record ∧ b'.terms.isSome := by
  obtain ⟨-, hrecord, hfree⟩ := commitPurchase_ok h
  obtain ⟨t, tiers, caps, unitsRaised, fundsRaised, tokensByCurrency, id, nextSeq, -, -, -, -, -,
    -, hnew, rfl⟩ := recordPlan_ok hrecord
  have hid : record.purchaseId = id := by rw [hnew]; rfl
  have hinitial : record.settlement = .initial := by rw [hnew]; rfl
  exact ⟨hfree, hinitial, by rw [hid], rfl⟩

/-- Starting a settlement alters nothing that was filed. -/
theorem filed_of_beginSettlement {id : Uuid} {record : PurchaseRecord} {destination : String}
    (h : b.beginSettlement id = .ok (.started record destination, b')) : b'.filed = b.filed := by
  obtain ⟨t, r, -, hr, -, -, -, rfl, rfl⟩ := beginSettlement_started h
  exact Directory.map_entries_insert hr rfl

theorem filed_endSettlement (b : Book) (id : Uuid) (p : SettlementProgress)
    (failure : Option CollaboratorError) : (b.endSettlement id p failure).filed = b.filed := by
  unfold endSettlement
  split
  · rfl
  next r hr => exact Directory.map_entries_insert hr rfl

end Book

end TokenSale
