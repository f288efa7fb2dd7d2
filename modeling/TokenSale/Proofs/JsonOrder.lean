import Mathlib.Data.List.Forall2
import Mathlib.Data.Option.Basic
import TokenSale.Proofs.JsonText

/-!
# TokenSale.Proofs.JsonOrder

The order of the members of an object tells nothing.  Documents are alike when
they differ in that order only, at whatever depth; settling puts the members
into key order, and so gives the same document for all that are alike.

* `Alike` — the relation, which `Alike.symm` and `Alike.trans` are about;
* `Alike.rel_find` — what is found in one of two objects that are alike;
* `IsSettled` — documents with members in key order, which settling gives and
  keeps;
* `IsDocument.isValue_settled`, `IsDocument.depth_settled` — what else it keeps;
* `IsDocument.alike_settled`, `IsDocument.settled_eq_iff` — documents are alike
  exactly if they are the same once settled.
-/

namespace TokenSale.Json

open OrderedKey Directory

variable {ok : Binary64 → Prop}

/-! ## documents that are alike -/

/-- Documents that differ only in the order of the members of objects, at
whatever depth. -/
inductive Alike : Json → Json → Prop
  | null : Alike .null .null
  | bool (b : Bool) : Alike (.bool b) (.bool b)
  | int (n : Int) : Alike (.int n) (.int n)
  | float (x : Binary64) : Alike (.float x) (.float x)
  | str (s : String) : Alike (.str s) (.str s)
  | arr {vs ws : List Json} (h : List.Forall₂ Alike vs ws) : Alike (.arr vs) (.arr ws)
  | obj {ms ns : List (String × Json)} (keys : (ms.map Prod.fst).Perm (ns.map Prod.fst))
    (h : ∀ k v w, (k, v) ∈ ms → (k, w) ∈ ns → Alike v w) : Alike (.obj ms) (.obj ns)

theorem Alike.symm {v w : Json} (h : Alike v w) : Alike w v := by
  induction v using Json.induction generalizing w with
  | null | bool | int | float | str => cases h; constructor
  | arr vs ih => cases h with
    | arr hitems =>
      refine .arr ?_
      induction hitems with
      | nil => exact .nil
      | cons hv _ ih' =>
          obtain ⟨ihv, ihrest⟩ := List.forall_mem_cons.1 ih
          exact .cons (ihv hv) (ih' ihrest)
  | obj ms ih => cases h with
    | obj hkeys hmembers =>
      exact .obj hkeys.symm fun k w v hw hv => ih _ hv (hmembers k v w hv hw)

theorem Alike.trans {u v w : Json} (huv : Alike u v) (hvw : Alike v w) : Alike u w := by
  induction u using Json.induction generalizing v w with
  | null | bool | int | float | str => cases huv; exact hvw
  | arr us ih => cases huv with
    | arr huv => cases hvw with
      | @arr _ ws hvw =>
        refine .arr ?_
        induction huv generalizing ws with
        | nil => exact hvw
        | cons hu _ ih' => cases hvw with
          | cons hv hrest =>
            obtain ⟨ihu, ihrest⟩ := List.forall_mem_cons.1 ih
            exact .cons (ihu hu hv) (ih' ihrest hrest)
  | obj ms ih => cases huv with
    | obj hkeys hmembers => cases hvw with
      | obj hkeys' hmembers' =>
        refine .obj (hkeys.trans hkeys') fun k u w hu hw => ?_
        obtain ⟨p, hp, rfl⟩ := List.mem_map.1 (hkeys.subset (List.mem_map_of_mem hu))
        exact ih _ hu (hmembers _ _ _ hu hp) (hmembers' _ _ _ hp hw)

/-- What is found under a key in two objects that are alike. -/
theorem Alike.rel_find {ms ns : List (String × Json)} (h : Alike (.obj ms) (.obj ns))
    (hnodup : (ms.map Prod.fst).Nodup) (k : String) :
    Option.Rel Alike (find k ms) (find k ns) := by
  cases h with
  | obj hkeys hmembers =>
    have hnodup' : (ns.map Prod.fst).Nodup := hkeys.nodup_iff.1 hnodup
    cases hv : find k ms with
    | some v =>
        obtain ⟨⟨_, w⟩, hw, rfl⟩ :=
          List.mem_map.1 (hkeys.subset (List.mem_map_of_mem (mem_of_find hv)))
        rw [find_of_nodup hnodup' hw]
        exact .some (hmembers _ v w (mem_of_find hv) hw)
    | none => cases hw : find k ns with
      | none => exact .none
      | some w =>
          obtain ⟨⟨_, v⟩, hmem, rfl⟩ :=
            List.mem_map.1 (hkeys.symm.subset (List.mem_map_of_mem (mem_of_find hw)))
          rw [find_of_nodup hnodup hmem] at hv
          contradiction

/-- Documents that are alike are nested alike. -/
theorem Alike.depth_le {v w : Json} (h : Alike v w) : v.depth ≤ w.depth := by
  induction v using Json.induction generalizing w with
  | null | bool | int | float | str => exact Nat.zero_le _
  | arr vs ih => cases h with
    | arr hitems =>
      rw [depth, depth]
      refine Nat.succ_le_succ ?_
      induction hitems with
      | nil => exact Nat.le_refl _
      | cons hv _ ih' =>
          obtain ⟨ihv, ihrest⟩ := List.forall_mem_cons.1 ih
          exact Nat.max_le.2 ⟨Nat.le_trans (ihv hv) (Nat.le_max_left _ _),
            Nat.le_trans (ih' ihrest) (Nat.le_max_right _ _)⟩
  | obj ms ih => cases h with
    | obj hkeys hmembers =>
      rw [depth, depth]
      refine Nat.succ_le_succ (depthOfMembers_le fun p hp => ?_)
      obtain ⟨q, hq, hkey⟩ := List.mem_map.1 (hkeys.subset (List.mem_map_of_mem hp))
      exact Nat.le_trans (ih p hp (hmembers p.1 p.2 q.2 hp (hkey ▸ hq)))
        (depth_le_of_mem_members hq)

/-! ## settling -/

theorem settledItems_eq_map (items : List Json) : settledItems items = items.map settled := by
  induction items with
  | nil => rfl
  | cons v items ih => rw [settledItems, ih, List.map_cons]

/-- The members of a settled object are in order. -/
theorem pairwise_settledMembers (members : List (String × Json)) :
    (settledMembers members).Pairwise fun p q => before p.1 q.1 = true := by
  induction members with
  | nil => simp [settledMembers]
  | cons p members ih =>
      simp only [settledMembers]
      split
      · exact ih
      · exact pairwise_place _ _ ih

/-- Every settled member was a member. -/
theorem exists_of_mem_settledMembers {members : List (String × Json)} {p : String × Json}
    (h : p ∈ settledMembers members) : ∃ q ∈ members, p = (q.1, q.2.settled) := by
  induction members with
  | nil => simp [settledMembers] at h
  | cons q members ih =>
      have hrest : p ∈ settledMembers members → ∃ q' ∈ q :: members, p = (q'.1, q'.2.settled) :=
        fun h => by
          obtain ⟨q', hq', rfl⟩ := ih h
          exact ⟨q', List.mem_cons_of_mem _ hq', rfl⟩
      simp only [settledMembers] at h
      split at h
      · exact hrest h
      · cases mem_place h with
        | inl heq => exact ⟨q, List.mem_cons_self .., heq⟩
        | inr h => exact hrest h

/-- Only the keys and the settled values of members count. -/
theorem settledMembers_congr {ms ns : List (String × Json)}
    (h : List.Forall₂ (fun p q => p.1 = q.1 ∧ p.2.settled = q.2.settled) ms ns) :
    settledMembers ms = settledMembers ns := by
  induction h with
  | nil => rfl
  | @cons p q ms ns hpq _ ih =>
      obtain ⟨k, v⟩ := p
      obtain ⟨k', w⟩ := q
      obtain ⟨rfl, hvalue⟩ : k = k' ∧ v.settled = w.settled := hpq
      simp only [settledMembers, ih, hvalue]

/-- Settling adds no key. -/
theorem find_settledMembers_eq_none {members : List (String × Json)} {k : String}
    (h : k ∉ members.map Prod.fst) : find k (settledMembers members) = none := by
  cases hfind : find k (settledMembers members) with
  | none => rfl
  | some w =>
      obtain ⟨q, hq, heq⟩ := exists_of_mem_settledMembers (mem_of_find hfind)
      cases heq
      exact absurd (List.mem_map_of_mem hq) h

/-- The keys stay. -/
theorem settledMembers_keys_perm {members : List (String × Json)}
    (h : (members.map Prod.fst).Nodup) :
    (members.map Prod.fst).Perm ((settledMembers members).map Prod.fst) := by
  induction members with
  | nil => exact .refl _
  | cons p members ih =>
      obtain ⟨hnot, hnodup⟩ := List.nodup_cons.1 h
      have hnone := find_settledMembers_eq_none hnot
      have hplace := (place_perm (a := p.2.settled) hnone).map Prod.fst
      rw [settledMembers, hnone, if_neg (by simp)]
      exact ((ih hnodup).cons p.1).trans hplace.symm

/-- A member is found as before. -/
theorem find_settledMembers {members : List (String × Json)}
    (h : (members.map Prod.fst).Nodup) (k : String) :
    find k (settledMembers members) = (find k members).map settled := by
  induction members with
  | nil => rfl
  | cons p members ih =>
      obtain ⟨k', v⟩ := p
      obtain ⟨hnot, hnodup⟩ := List.nodup_cons.1 h
      simp only [settledMembers, find_settledMembers_eq_none hnot, Option.isSome_none, Bool.false_eq_true, if_false,
        Directory.find]
      split
      next hk => subst hk; simp [find_place_self]
      next hk => rw [find_place_ne hk, ih hnodup]

/-- Documents in which the members of every object stand in key order, one
under each key. -/
inductive IsSettled : Json → Prop
  | null : IsSettled .null
  | bool (b : Bool) : IsSettled (.bool b)
  | int (n : Int) : IsSettled (.int n)
  | float (x : Binary64) : IsSettled (.float x)
  | str (s : String) : IsSettled (.str s)
  | arr {items : List Json} (h : ∀ v ∈ items, IsSettled v) : IsSettled (.arr items)
  | obj {members : List (String × Json)} (h : ∀ p ∈ members, IsSettled p.2)
    (ordered : members.Pairwise fun p q => before p.1 q.1 = true) : IsSettled (.obj members)

/-- **What settling gives is settled.** -/
theorem isSettled_settled (v : Json) : v.settled.IsSettled := by
  induction v using Json.induction with
  | null | bool | int | float | str => constructor
  | arr items ih =>
      rw [Json.settled, settledItems_eq_map]
      exact .arr (List.forall_mem_map.2 ih)
  | obj members ih =>
      refine .obj (fun p hp => ?_) (pairwise_settledMembers members)
      obtain ⟨q, hq, rfl⟩ := exists_of_mem_settledMembers hp
      exact ih q hq

/-- Settling changes nothing in them. -/
theorem IsSettled.settled_eq {v : Json} (h : v.IsSettled) : v.settled = v := by
  induction v using Json.induction with
  | null | bool | int | float | str => rfl
  | arr items ih => cases h with
    | arr hitems =>
      rw [Json.settled, settledItems_eq_map, List.map_congr_left fun v hv => ih v hv (hitems v hv),
        List.map_id']
  | obj members ih => cases h with
    | obj hmembers hordered =>
      rw [Json.settled]
      congr 1
      induction members with
      | nil => rfl
      | cons p members ih' =>
          obtain ⟨hp, hrest⟩ := List.forall_mem_cons.1 hmembers
          obtain ⟨ihp, ihrest⟩ := List.forall_mem_cons.1 ih
          obtain ⟨hfirst, hordered⟩ := List.pairwise_cons.1 hordered
          rw [settledMembers, ih' ihrest hrest hordered, ihp hp]
          simp only [find_eq_none_of_before hfirst, Option.isSome_none, Bool.false_eq_true,
            if_false]
          exact place_eq_cons hfirst

/-- A value of the reader is settled. -/
theorem IsValue.isSettled {v : Json} (h : v.IsValue ok) : v.IsSettled := by
  induction v using Json.induction with
  | null | bool | int | float | str => constructor
  | arr items ih => cases h with
    | arr hitems => exact .arr fun v hv => ih v hv (hitems v hv)
  | obj members ih => cases h with
    | obj hmembers hordered => exact .obj (fun p hp => ih p hp (hmembers p hp)) hordered

/-- The document of values is settled. -/
theorem IsValue.settled {v : Json} (h : v.IsValue ok) : v.settled = v := h.isSettled.settled_eq

theorem IsDocument.mono {ok' : Binary64 → Prop} (hok : ∀ x, ok x → ok' x) {v : Json}
    (h : v.IsDocument ok) : v.IsDocument ok' := by
  induction v using Json.induction with
  | null => exact .null
  | bool b => exact .bool b
  | int n => cases h with
    | int least most => exact .int least most
  | float x => cases h with
    | float h => exact .float (hok x h)
  | str s => exact .str s
  | arr items ih => cases h with
    | arr hitems => exact .arr fun v hv => ih v hv (hitems v hv)
  | obj members ih => cases h with
    | obj hmembers hnodup => exact .obj (fun p hp => ih p hp (hmembers p hp)) hnodup

/-- What is written can be held, once it is settled. -/
theorem IsDocument.isValue_settled {v : Json} (h : v.IsDocument ok) : v.settled.IsValue ok := by
  induction v using Json.induction with
  | null => exact .null
  | bool b => exact .bool b
  | int n => cases h with
    | int least most => exact .int least most
  | float x => cases h with
    | float h => exact .float h
  | str s => exact .str s
  | arr items ih => cases h with
    | arr hitems =>
      rw [Json.settled, settledItems_eq_map]
      exact .arr (List.forall_mem_map.2 fun v hv => ih v hv (hitems v hv))
  | obj members ih => cases h with
    | obj hmembers _ =>
      refine .obj (fun p hp => ?_) (pairwise_settledMembers members)
      obtain ⟨q, hq, rfl⟩ := exists_of_mem_settledMembers hp
      exact ih q hq (hmembers q hq)

theorem IsValue.mono {ok' : Binary64 → Prop} (hok : ∀ x, ok x → ok' x) {v : Json}
    (h : v.IsValue ok) : v.IsValue ok' := by
  rw [← h.settled]
  exact (h.isDocument.mono hok).isValue_settled

/-! ## one document for all that are alike -/

/-- Settling changes the order only. -/
theorem IsDocument.alike_settled {v : Json} (h : v.IsDocument ok) : Alike v v.settled := by
  induction v using Json.induction with
  | null | bool | int | float | str => constructor
  | arr items ih => cases h with
    | arr hitems =>
      rw [Json.settled, settledItems_eq_map]
      refine .arr (List.forall₂_map_right_iff.2 (List.forall₂_same.2 fun v hv => ?_))
      exact ih v hv (hitems v hv)
  | obj members ih => cases h with
    | obj hmembers hnodup =>
      rw [Json.settled]
      refine .obj (settledMembers_keys_perm hnodup) fun k v w hv hw => ?_
      have hfind := find_of_mem (pairwise_settledMembers members) hw
      rw [find_settledMembers hnodup, find_of_nodup hnodup hv, Option.map_some] at hfind
      cases hfind
      exact ih _ hv (hmembers _ hv)

/-- Documents that are alike are the same, once settled. -/
theorem Alike.settled_eq {v w : Json} (h : Alike v w) (hv : v.IsDocument ok) :
    v.settled = w.settled := by
  induction v using Json.induction generalizing w with
  | null | bool | int | float | str => cases h; rfl
  | arr vs ih => cases h with
    | arr hitems => cases hv with
      | arr hv =>
        rw [Json.settled, Json.settled]
        congr 1
        induction hitems with
        | nil => rfl
        | cons hvw _ ih' =>
            obtain ⟨ihv, ihrest⟩ := List.forall_mem_cons.1 ih
            obtain ⟨hfirst, hrest⟩ := List.forall_mem_cons.1 hv
            rw [settledItems, settledItems, ihv hvw hfirst, ih' ihrest hrest]
  | obj ms ih => cases hv with
    | obj hmembers hnodup =>
      cases w with
      | obj ns =>
        have hnodup' : (ns.map Prod.fst).Nodup := by
          cases h with
          | obj hkeys _ => exact hkeys.nodup_iff.1 hnodup
        rw [Json.settled, Json.settled]
        congr 1
        refine eq_of_find_eq (pairwise_settledMembers ms) (pairwise_settledMembers ns) fun k => ?_
        rw [find_settledMembers hnodup, find_settledMembers hnodup']
        generalize hv : find k ms = v, find k ns = w, h.rel_find hnodup k = hvw
        cases hvw with
        | none => rfl
        | some h => exact congrArg some (ih _ (mem_of_find hv) h (hmembers _ (mem_of_find hv)))
      | _ => cases h

/-- Settling a document does not change how deep it nests. -/
theorem IsDocument.depth_settled {v : Json} (h : v.IsDocument ok) : v.settled.depth = v.depth :=
  Nat.le_antisymm h.alike_settled.symm.depth_le h.alike_settled.depth_le

/-- **Documents are alike exactly if they are the same, once settled.** -/
theorem IsDocument.settled_eq_iff {v w : Json} (hv : v.IsDocument ok) (hw : w.IsDocument ok) :
    v.settled = w.settled ↔ Alike v w :=
  ⟨fun h => (h ▸ hv.alike_settled).trans hw.alike_settled.symm, fun h => h.settled_eq hv⟩

end TokenSale.Json
