import Mathlib.Data.List.Perm.Basic
import TokenSale.Directory

/-!
# TokenSale.Proofs.Entries

Lists of entries under keys, and what it means for finding one of them that
they stand in key order.

* `mem_of_find`, `find_of_nodup` — what is found is there, and the other way
  round when keys are distinct, as they are in key order;
* `eq_of_find_eq` — entries in key order are determined by what is found;
* `place_perm`, `map_place` — filing under a new key, and under one in use;
* `place_eq_cons` — an entry before all others is filed in front;
* `ofList_eq` — a directory is made by filing its entries in any order;
* `get?_eq_some_iff`, `contains_iff_mem_keys`, `mem_keys_ofList` — what is filed
  in a directory, and under which keys.
-/

namespace TokenSale.Directory

variable {κ α β : Type} [DecidableEq κ] [OrderedKey κ]

omit [OrderedKey κ] in
/-- What is found is an entry. -/
theorem mem_of_find {k : κ} {a : α} {l : List (κ × α)} (h : find k l = some a) : (k, a) ∈ l := by
  induction l with
  | nil => contradiction
  | cons p l ih =>
      obtain ⟨k', a'⟩ := p
      simp only [find] at h
      split at h
      next hk =>
        simp_all
      · exact List.mem_cons_of_mem _ (ih h)

/-- A key in front of all entries is not found. -/
theorem find_eq_none_of_before {k : κ} {l : List (κ × α)}
    (h : ∀ p ∈ l, OrderedKey.before k p.1 = true) : find k l = none := by
  cases hf : find k l with
  | none => rfl
  | some a =>
      have hself := h _ (mem_of_find hf)
      simp [OrderedKey.before_irrefl] at hself

omit [OrderedKey κ] in
theorem find_of_nodup {k : κ} {a : α} {l : List (κ × α)} (hl : (l.map Prod.fst).Nodup)
    (h : (k, a) ∈ l) : find k l = some a := by
  induction l with
  | nil => contradiction
  | cons p l ih =>
      obtain ⟨hfirst, hl⟩ := List.nodup_cons.1 hl
      cases List.mem_cons.1 h with
      | inl heq => simp [← heq, find]
      | inr hmem =>
          have hne : k ≠ p.1 := fun hk => hfirst (hk ▸ List.mem_map_of_mem hmem)
          simp [find, hne, ih hl hmem]

/-- Ordered keys do not repeat. -/
theorem nodup_of_pairwise {l : List (κ × α)}
    (hl : l.Pairwise fun p q => OrderedKey.before p.1 q.1 = true) : (l.map Prod.fst).Nodup := by
  rw [List.Nodup, List.pairwise_map]
  exact hl.imp OrderedKey.ne_of_before

theorem find_of_mem {k : κ} {a : α} {l : List (κ × α)}
    (hl : l.Pairwise fun p q => OrderedKey.before p.1 q.1 = true) (h : (k, a) ∈ l) :
    find k l = some a := find_of_nodup (nodup_of_pairwise hl) h

/-- Entries in key order are determined by what is found. -/
theorem eq_of_find_eq {l l' : List (κ × α)}
    (hl : l.Pairwise fun p q => OrderedKey.before p.1 q.1 = true)
    (hl' : l'.Pairwise fun p q => OrderedKey.before p.1 q.1 = true)
    (h : ∀ k, find k l = find k l') : l = l' := by
  have hmem : ∀ p, p ∈ l ↔ p ∈ l' := fun p =>
    ⟨fun hp => mem_of_find (h p.1 ▸ find_of_mem hl hp),
      fun hp => mem_of_find ((h p.1).symm ▸ find_of_mem hl' hp)⟩
  have hnodup : ∀ {l : List (κ × α)},
      (l.Pairwise fun p q => OrderedKey.before p.1 q.1 = true) → l.Nodup :=
    fun hl => hl.imp fun hpq heq => OrderedKey.ne_of_before hpq (congrArg Prod.fst heq)
  have hperm : l.Perm l' := (List.perm_ext_iff_of_nodup (hnodup hl) (hnodup hl')).2 hmem
  refine hperm.eq_of_pairwise (fun p q _ _ hpq hqp => ?_) hl hl'
  have hself := OrderedKey.before_trans hpq hqp
  simp [OrderedKey.before_irrefl] at hself

/-- An entry before all others is filed in front of them. -/
theorem place_eq_cons {k : κ} {a : α} {l : List (κ × α)}
    (h : ∀ p ∈ l, OrderedKey.before k p.1 = true) : place k a l = (k, a) :: l := by
  cases l with
  | nil => rfl
  | cons p l =>
      have hp := h p (List.mem_cons_self ..)
      simp [place, OrderedKey.ne_of_before hp, hp]

/-- Placing an entry under a new key adds it, up to the order. -/
theorem place_perm {k : κ} {a : α} {l : List (κ × α)} (h : find k l = none) :
    (place k a l).Perm ((k, a) :: l) := by
  induction l with
  | nil => exact .refl _
  | cons p l ih =>
      obtain ⟨k', a'⟩ := p
      simp only [find] at h
      split at h
      · contradiction
      next hne =>
      simp only [place, if_neg hne]
      split
      · exact .refl _
      · exact ((ih h).cons _).trans (.swap _ _ _)

/-- Replacing an entry by one that looks the same changes no entry's look. -/
theorem map_place {k : κ} {a a' : α} {l : List (κ × α)} {g : κ × α → β}
    (hl : l.Pairwise fun p q => OrderedKey.before p.1 q.1 = true) (h : find k l = some a)
    (hg : g (k, a') = g (k, a)) : (place k a' l).map g = l.map g := by
  induction l with
  | nil => contradiction
  | cons p l ih =>
      obtain ⟨k', b⟩ := p
      obtain ⟨hfirst, hl⟩ := List.pairwise_cons.1 hl
      simp only [find] at h
      by_cases hk : k = k'
      · subst hk
        simp only [if_true, Option.some.injEq] at h
        simp [place, hg, h]
      · rw [if_neg hk] at h
        -- the entry under `k` stands further on, so its place is not here
        have hbefore : OrderedKey.before k k' = false := by
          by_contra hb
          have hself := OrderedKey.before_trans (hfirst _ (mem_of_find h)) (by simpa using hb)
          simp [OrderedKey.before_irrefl] at hself
        simp [place, hk, hbefore, ih hl h]

/-- Among entries under distinct keys that are filed, each is found. -/
theorem get?_foldl_insert {l : List (κ × α)} (hl : (l.map Prod.fst).Nodup) (d : Directory κ α)
    (k : κ) : (l.foldl (fun d p => d.insert p.1 p.2) d).get? k = (find k l).or (d.get? k) := by
  induction l generalizing d with
  | nil => rfl
  | cons p l ih =>
      obtain ⟨hfirst, hl⟩ := List.nodup_cons.1 hl
      rw [List.foldl_cons, ih hl, get?_insert, find]
      split
      next hk =>
        subst hk
        have hnone : find p.1 l = none := by
          cases hfind : find p.1 l with
          | none => rfl
          | some a => exact absurd (List.mem_map_of_mem (mem_of_find hfind)) hfirst
        rw [hnone, Option.none_or, Option.some_or]
      next => rfl

/-- A directory is made by filing its entries in any order. -/
theorem ofList_eq {l : List (κ × α)} {d : Directory κ α} (hkeys : (l.map Prod.fst).Perm d.keys)
    (h : ∀ p ∈ l, p ∈ d.entries) : ofList l = d := by
  have hnodup : (l.map Prod.fst).Nodup := hkeys.nodup_iff.2 (nodup_of_pairwise d.ordered)
  have hfind : ∀ k, find k l = d.get? k := by
    intro k
    cases hd : d.get? k with
    | none => cases hl : find k l with
      | none => rfl
      | some a =>
          rw [get?, find_of_mem d.ordered (h _ (mem_of_find hl))] at hd
          cases hd
    | some a =>
        obtain ⟨p, hp, rfl⟩ :=
          List.mem_map.1 (hkeys.symm.subset (List.mem_map_of_mem (mem_of_find hd)))
        have hsame : d.get? p.1 = some p.2 := find_of_mem d.ordered (h p hp)
        rw [hd] at hsame
        cases hsame
        exact find_of_nodup hnodup hp
  refine ext (eq_of_find_eq (ofList l).ordered d.ordered fun k => ?_)
  have hfiled := get?_foldl_insert hnodup empty k
  rw [get?_empty, Option.or_none] at hfiled
  exact hfiled.trans (hfind k)

/-! ## what is filed -/

theorem nodup_keys (d : Directory κ α) : d.keys.Nodup := nodup_of_pairwise d.ordered

/-- A key leads to exactly the value of its entry. -/
theorem get?_eq_some_iff {d : Directory κ α} {k : κ} {a : α} :
    d.get? k = some a ↔ (k, a) ∈ d.entries :=
  ⟨mem_of_find, find_of_mem d.ordered⟩

/-- Of two entries that are filed under one key the later one stays. -/
theorem insert_insert (d : Directory κ α) (k : κ) (a a' : α) :
    (d.insert k a).insert k a' = d.insert k a' := by
  refine Directory.ext (eq_of_find_eq (ordered _) (ordered _) fun k' => ?_)
  change get? ((d.insert k a).insert k a') k' = get? (d.insert k a') k'
  simp only [get?_insert]
  split <;> rfl

/-- A directory contains exactly its keys. -/
theorem contains_iff_mem_keys {d : Directory κ α} {k : κ} : d.contains k = true ↔ k ∈ d.keys := by
  rw [contains, Option.isSome_iff_exists, keys, List.mem_map]
  constructor
  · rintro ⟨a, ha⟩
    exact ⟨(k, a), get?_eq_some_iff.1 ha, rfl⟩
  · rintro ⟨⟨k, a⟩, ha, rfl⟩
    exact ⟨a, get?_eq_some_iff.2 ha⟩

theorem mem_keys_insert {d : Directory κ α} {k k' : κ} {a : α} :
    k' ∈ (d.insert k a).keys ↔ k' = k ∨ k' ∈ d.keys := by
  rw [← contains_iff_mem_keys, ← contains_iff_mem_keys, contains, contains, get?_insert]
  split
  next h => simp [h]
  next h => simp [h]

theorem mem_of_mem_ofList {l : List (κ × α)} {p : κ × α} (h : p ∈ (ofList l).entries) : p ∈ l := by
  have hfold (d : Directory κ α) (hp : p ∈ (l.foldl (fun d p => d.insert p.1 p.2) d).entries) :
      p ∈ l ∨ p ∈ d.entries := by
    clear h
    induction l generalizing d with
    | nil => exact .inr hp
    | cons q l ih =>
        obtain hmem | hmem := ih (d.insert q.1 q.2) hp
        · exact .inl (.tail _ hmem)
        · obtain rfl | hmem := mem_place hmem
          · exact .inl (.head _)
          · exact .inr hmem
  exact (hfold empty h).resolve_right nofun

/-- A directory has the keys of the entries that were filed. -/
theorem mem_keys_ofList {l : List (κ × α)} {k : κ} : k ∈ (ofList l).keys ↔ k ∈ l.map Prod.fst := by
  have hfold (d : Directory κ α) : k ∈ (l.foldl (fun d p => d.insert p.1 p.2) d).keys ↔
      k ∈ l.map Prod.fst ∨ k ∈ d.keys := by
    induction l generalizing d with
    | nil => simp
    | cons p l ih => rw [List.foldl_cons, ih, mem_keys_insert, List.map_cons, List.mem_cons,
        or_left_comm, or_assoc]
  rw [ofList, hfold]
  exact or_iff_left nofun

end TokenSale.Directory
