import TokenSale.Text.Order

/-!
# TokenSale.Directory

Entries filed under keys, each key at most once, listed in key order.  The
order is part of the type, so what is read back does not depend on the order
in which entries were filed.

* `get?_insert_self`, `get?_insert_ne` — filing under a key replaces what was
  there and touches no other key;
* `get?_erase_self`, `get?_erase_ne` — the same for taking an entry out.
-/

namespace TokenSale

/-- Keys with a strict linear order that can be decided. -/
class OrderedKey (κ : Type) [DecidableEq κ] where
  before : κ → κ → Bool
  before_irrefl (a : κ) : before a a = false
  before_trans {a b c : κ} : before a b = true → before b c = true → before a c = true
  before_total {a b : κ} : a ≠ b → before a b = true ∨ before b a = true

namespace OrderedKey

variable {κ : Type} [DecidableEq κ] [OrderedKey κ]

theorem ne_of_before {a b : κ} (h : before a b = true) : a ≠ b := by
  intro e
  rw [e, before_irrefl] at h
  cases h

/-- Keys are ordered as the texts they stand for. -/
@[reducible] def ofText {κ : Type} [DecidableEq κ] (text : κ → List Char)
    (inj : ∀ {a b}, text a = text b → a = b) : OrderedKey κ where
  before a b := Text.precedes (text a) (text b)
  before_irrefl _ := Text.precedes_irrefl _
  before_trans := Text.precedes_trans
  before_total h := Text.precedes_total fun e => h (inj e)

/-- Keys are ordered as the numbers they stand for. -/
@[reducible] def ofNat {κ : Type} [DecidableEq κ] (number : κ → Nat)
    (inj : ∀ {a b}, number a = number b → a = b) : OrderedKey κ where
  before a b := decide (number a < number b)
  before_irrefl a := by simp
  before_trans := by simp only [decide_eq_true_eq]; exact Nat.lt_trans
  before_total h := by
    simp only [decide_eq_true_eq]
    exact Nat.lt_or_gt_of_ne fun e => h (inj e)

instance : OrderedKey String := ofText String.toList String.toList_inj.1

end OrderedKey

open OrderedKey

/-- Entries under distinct keys, listed in key order. -/
structure Directory (κ α : Type) [DecidableEq κ] [OrderedKey κ] where
  entries : List (κ × α)
  ordered : entries.Pairwise fun p q => before p.1 q.1 = true

namespace Directory

variable {κ α β : Type} [DecidableEq κ] [OrderedKey κ]

@[ext] theorem ext {d e : Directory κ α} (h : d.entries = e.entries) : d = e := by
  cases d; cases e; cases h; rfl

/-! ## entry lists -/

/-- The first entry under `k`. -/
def find (k : κ) : List (κ × α) → Option α
  | [] => none
  | (k', a) :: rest => if k = k' then some a else find k rest

/-- Files `a` under `k` in its place. -/
def place (k : κ) (a : α) : List (κ × α) → List (κ × α)
  | [] => [(k, a)]
  | (k', a') :: rest =>
    if k = k' then (k, a) :: rest
    else if before k k' then (k, a) :: (k', a') :: rest
    else (k', a') :: place k a rest

/-- What was placed is found under its key. -/
theorem find_place_self (k : κ) (a : α) (l : List (κ × α)) : find k (place k a l) = some a := by
  induction l with
  | nil => simp [place, find]
  | cons p l ih =>
      obtain ⟨k', a'⟩ := p
      simp only [place]
      split
      · simp [find]
      · split
        · simp [find]
        · rename_i h _; simp [find, h, ih]

/-- Placing an entry hides no entry of another key. -/
theorem find_place_ne {k k' : κ} (h : k' ≠ k) (a : α) (l : List (κ × α)) :
    find k' (place k a l) = find k' l := by
  induction l with
  | nil => simp [place, find, h]
  | cons p l ih =>
      obtain ⟨k'', a''⟩ := p
      simp only [place]
      split
      · rename_i e; subst e; simp [find, h]
      · split
        · simp [find, h]
        · simp [find, ih]

/-- Nothing is in the list but what was there and what was placed. -/
theorem mem_place {k : κ} {a : α} {p : κ × α} {l : List (κ × α)} (h : p ∈ place k a l) :
    p = (k, a) ∨ p ∈ l := by
  induction l with
  | nil => simpa [place] using h
  | cons q l ih =>
      obtain ⟨k', a'⟩ := q
      simp only [place] at h
      split at h
      · simp only [List.mem_cons] at h ⊢; cases h <;> simp_all
      · split at h
        · simp only [List.mem_cons] at h ⊢; exact h
        · simp only [List.mem_cons] at h ⊢
          cases h with
          | inl h => exact .inr (.inl h)
          | inr h => cases ih h with
            | inl h => exact .inl h
            | inr h => exact .inr (.inr h)

/-- Placing keeps the keys in order, and so without repetition. -/
theorem pairwise_place (k : κ) (a : α) {l : List (κ × α)}
    (h : l.Pairwise fun p q => before p.1 q.1 = true) :
    (place k a l).Pairwise fun p q => before p.1 q.1 = true := by
  induction l with
  | nil => simp [place]
  | cons p l ih =>
      obtain ⟨k', a'⟩ := p
      have hl := List.pairwise_cons.1 h
      simp only [place]
      split
      · rename_i e; subst e; exact List.pairwise_cons.2 ⟨hl.1, hl.2⟩
      · rename_i hne
        split
        · rename_i hb
          refine List.pairwise_cons.2 ⟨?_, h⟩
          intro q hq
          cases List.mem_cons.1 hq with
          | inl e => rw [e]; exact hb
          | inr hq => exact before_trans hb (hl.1 q hq)
        · rename_i hb
          refine List.pairwise_cons.2 ⟨?_, ih hl.2⟩
          intro q hq
          cases mem_place hq with
          | inl e =>
              rw [e]
              cases before_total hne with
              | inl h => exact absurd h hb
              | inr h => exact h
          | inr hq => exact hl.1 q hq

omit [OrderedKey κ] in
/-- With the entries of a key left out, that key is all that is not found. -/
theorem find_filter_ne {k k' : κ} (l : List (κ × α)) :
    find k' (l.filter fun p => !decide (p.1 = k)) = if k' = k then none else find k' l := by
  induction l with
  | nil => simp [find]
  | cons p l ih =>
      obtain ⟨k'', a⟩ := p
      simp only [List.filter_cons]
      split <;> rename_i h
      · simp only [find]
        split
        · rename_i e; subst e; simp only [Bool.not_eq_true', decide_eq_false_iff_not] at h; simp [h]
        · exact ih
      · simp only [Bool.not_eq_true, Bool.not_eq_false', decide_eq_true_eq] at h
        rw [ih]
        split
        · rfl
        · rename_i hk
          have hk'' : k' ≠ k'' := fun e => hk (e.trans h)
          simp [find, hk'']

/-! ## the operations -/

/-- No entries. -/
def empty : Directory κ α := ⟨[], List.Pairwise.nil⟩

instance : Inhabited (Directory κ α) := ⟨empty⟩

/-- The entry under `k`. -/
def get? (d : Directory κ α) (k : κ) : Option α := find k d.entries

/-- Whether there is an entry under `k`. -/
def contains (d : Directory κ α) (k : κ) : Bool := (d.get? k).isSome

/-- Files `a` under `k`, in place of what was there. -/
def insert (d : Directory κ α) (k : κ) (a : α) : Directory κ α :=
  ⟨place k a d.entries, pairwise_place k a d.ordered⟩

/-- Takes out the entry under `k`. -/
def erase (d : Directory κ α) (k : κ) : Directory κ α :=
  ⟨d.entries.filter fun p => !decide (p.1 = k), d.ordered.filter _⟩

/-- Files a list of entries one after the other; a later one wins. -/
def ofList (l : List (κ × α)) : Directory κ α :=
  l.foldl (fun d p => d.insert p.1 p.2) empty

/-- The keys in order. -/
def keys (d : Directory κ α) : List κ := d.entries.map Prod.fst

/-- What is filed, in key order. -/
def values (d : Directory κ α) : List α := d.entries.map Prod.snd

/-- How many entries there are. -/
def size (d : Directory κ α) : Nat := d.entries.length

@[simp] theorem get?_empty (k : κ) : (empty : Directory κ α).get? k = none := rfl

@[simp] theorem get?_insert_self (d : Directory κ α) (k : κ) (a : α) :
    (d.insert k a).get? k = some a := find_place_self k a d.entries

/-- An insertion leaves every other key as it was. -/
theorem get?_insert_ne (d : Directory κ α) {k k' : κ} (h : k' ≠ k) (a : α) :
    (d.insert k a).get? k' = d.get? k' := find_place_ne h a d.entries

/-- What every key leads to after an insertion. -/
theorem get?_insert (d : Directory κ α) (k k' : κ) (a : α) :
    (d.insert k a).get? k' = if k' = k then some a else d.get? k' := by
  split
  · rename_i h; rw [h, get?_insert_self]
  · rename_i h; exact get?_insert_ne d h a

@[simp] theorem get?_erase_self (d : Directory κ α) (k : κ) : (d.erase k).get? k = none := by
  simp [get?, erase, find_filter_ne]

/-- An erasure leaves every other key as it was. -/
theorem get?_erase_ne (d : Directory κ α) {k k' : κ} (h : k' ≠ k) :
    (d.erase k).get? k' = d.get? k' := by
  simp [get?, erase, find_filter_ne, h]

end Directory

end TokenSale
