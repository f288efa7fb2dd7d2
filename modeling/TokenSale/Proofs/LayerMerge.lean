import Mathlib.Data.List.Induction
import TokenSale.Proofs.Layers

/-!
# TokenSale.Proofs.LayerMerge

What stands at a path of keys in documents that are merged.  Only objects are
entered; what is no object is replaced as a whole, also by null, and takes all
that stood below it along.

* `Json.below?` — what stands at a path of keys;
* `Json.Blocks`, `Json.Lacks` — why nothing stands there, and no other way
  (`Json.below?_cases`);
* `Json.overlays`, `Json.merge_merge_self` — two documents;
* `Json.below?_foldl_eq_iff`, `Json.isSome_below?_foldl` — any number of them;
* `layers_merge_by_path` — both, and that layers are merged so.
-/

namespace TokenSale

open Json Directory

namespace Json

variable {a b v w : Json} {path : List String} {k : String}

/-! ## paths of keys -/

/-- What stands at a path of keys, each of them a key of an object. -/
def below? (v : Json) : List String → Option Json
  | [] => some v
  | k :: path => (v.member? k).bind fun w => w.below? path

/-- Something that is no object stands on the way. -/
def Blocks (v : Json) (path : List String) : Prop :=
  ∃ front k rest w, path = front ++ k :: rest ∧ v.below? front = some w ∧ w.members? = none

/-- An object on the way does not have the next key. -/
def Lacks (v : Json) (path : List String) : Prop :=
  ∃ front k rest members, path = front ++ k :: rest ∧ v.below? front = some (.obj members) ∧
    find k members = none

theorem member?_eq_find (v : Json) (k : String) : v.member? k = find k (v.members?.getD []) := by
  cases v <;> rfl

theorem member?_of_members? (h : v.members? = none) (k : String) : v.member? k = none := by
  rw [member?_eq_find, h]
  rfl

theorem eq_obj_of_members? {members : List (String × Json)} (h : v.members? = some members) :
    v = .obj members := by
  cases v <;> cases h
  rfl

theorem below?_append (v : Json) (path more : List String) :
    v.below? (path ++ more) = (v.below? path).bind fun w => w.below? more := by
  induction path generalizing v with
  | nil => rfl
  | cons k path ih =>
      rw [List.cons_append, below?, below?, Option.bind_assoc]
      exact congrArg _ (funext fun w => ih w)

theorem below?_step {front rest : List String} (h : v.below? front = some w) :
    v.below? (front ++ k :: rest) = (w.member? k).bind fun u => u.below? rest := by
  rw [below?_append, h, Option.bind_some, below?]

/-- Something stands at a path of keys, or the way there ends before. -/
theorem below?_cases (v : Json) (path : List String) :
    (∃ w, v.below? path = some w) ∨ v.Blocks path ∨ v.Lacks path := by
  -- the way is gone one key further; where it has ended, it stays ended
  induction path using List.reverseRecOn with
  | nil => exact .inl ⟨v, rfl⟩
  | append_singleton path k ih =>
      obtain ⟨w, hw⟩ | ⟨front, k', rest, w, rfl, hw⟩ | ⟨front, k', rest, w, rfl, hw⟩ := ih
      · cases hmembers : w.members? with
        | none => exact .inr (.inl ⟨path, k, [], w, rfl, hw, hmembers⟩)
        | some members =>
            obtain rfl := eq_obj_of_members? hmembers
            cases hfind : find k members with
            | none => exact .inr (.inr ⟨path, k, [], members, rfl, hw, hfind⟩)
            | some u => exact .inl ⟨u, by rw [below?_step hw, member?, hfind]; rfl⟩
      · exact .inr (.inl ⟨front, k', rest ++ [k], w, by simp, hw⟩)
      · exact .inr (.inr ⟨front, k', rest ++ [k], w, by simp, hw⟩)

/-- What stands below something that is settled is settled. -/
theorem IsSettled.below? (hv : v.IsSettled) (h : v.below? path = some w) : w.IsSettled := by
  induction path generalizing v with
  | nil => cases h; exact hv
  | cons k path ih =>
      obtain ⟨u, hu, hw⟩ := Option.bind_eq_some_iff.1 h
      cases v with
      | obj members => exact ih (hv.find hu) hw
      | _ => cases hu

/-! ## two documents -/

/-- What is no object replaces all that was there. -/
theorem merge_of_members? (a : Json) (h : b.members? = none) : a.merge b = b := by
  cases b with
  | obj members => cases h
  | _ => rfl

/-- What a key leads to after members were merged into others. -/
theorem find_mergeMembers {members : List (String × Json)} (hnodup : (members.map Prod.fst).Nodup)
    (under : List (String × Json)) (k : String) : find k (mergeMembers under members) =
      match find k members with
      | none => find k under
      | some w => some (((find k under).getD .null).merge w) := by
  induction members generalizing under with
  | nil => rfl
  | cons p members ih =>
      obtain ⟨k', w⟩ := p
      obtain ⟨hnot, hnodup⟩ := List.nodup_cons.1 hnodup
      rw [mergeMembers, ih hnodup]
      by_cases hk : k = k'
      · subst hk
        have hnone : find k members = none := by
          cases hfind : find k members with
          | none => rfl
          | some u => exact absurd (List.mem_map_of_mem (mem_of_find hfind)) hnot
        rw [hnone, find, if_pos rfl]
        exact find_place_self k _ under
      · rw [find, if_neg hk, find_place_ne hk]

/-- What stands under a key in a document over another. -/
theorem member?_merge {members : List (String × Json)} (hb : (Json.obj members).IsSettled)
    (a : Json) (k : String) : (a.merge (.obj members)).member? k =
      match find k members with
      | none => a.member? k
      | some w => some (((a.member? k).getD .null).merge w) := by
  cases hb with
  | obj hmembers hordered =>
    rw [merge, member?, find_mergeMembers (nodup_of_pairwise hordered), ← member?_eq_find]

theorem getD_below?_null (path : List String) : ((Json.null).below? path).getD .null = .null := by
  cases path <;> rfl

/-- **What the document above has at a path** lies over what the other one has there. -/
theorem below?_merge (hb : b.IsSettled) (a : Json) (h : b.below? path = some w) :
    (a.merge b).below? path = some (((a.below? path).getD .null).merge w) := by
  induction path generalizing a b with
  | nil => cases h; rfl
  | cons k path ih =>
      obtain ⟨u, hu, hw⟩ := Option.bind_eq_some_iff.1 h
      cases b with
      | obj members =>
          have hu : find k members = some u := hu
          rw [below?, member?_merge hb, hu]
          simp only [Option.bind_some]
          rw [ih (hb.find hu) _ hw, below?]
          cases a.member? k with
          | none => rw [Option.getD_none, getD_below?_null, Option.bind_none, Option.getD_none]
          | some u' => rfl
      | _ => cases hu

/-- **Nothing that is no object is merged**, and nothing is left below it. -/
theorem Blocks.below?_merge (hb : b.IsSettled) (a : Json) (h : b.Blocks path) :
    (a.merge b).below? path = none := by
  obtain ⟨front, k, rest, w, rfl, hw, hnone⟩ := h
  rw [below?_step (Json.below?_merge hb a hw), merge_of_members? _ hnone,
    member?_of_members? hnone, Option.bind_none]

/-- **Where an object lacks a key** all stays as it was. -/
theorem Lacks.below?_merge (hb : b.IsSettled) (a : Json) (h : b.Lacks path) :
    (a.merge b).below? path = a.below? path := by
  obtain ⟨front, k, rest, members, rfl, hw, hnone⟩ := h
  rw [below?_step (Json.below?_merge hb a hw), member?_merge (hb.below? hw), hnone, below?_append]
  simp only [below?]
  cases a.below? front with
  | none => rfl
  | some u => rfl

/-- A merge sees the members of what is below it, nothing else. -/
theorem merge_congr {a' : Json} (h : a.members?.getD [] = a'.members?.getD []) (b : Json) :
    a.merge b = a'.merge b := by
  cases b with
  | obj members => rw [merge, merge, h]
  | _ => rfl

/-- An object over nothing is the object. -/
theorem merge_eq_self (ha : a.members?.getD [] = []) (hb : b.IsSettled) : a.merge b = b := by
  induction b using Json.induction generalizing a with
  | null | bool | int | float | str | arr => rfl
  | obj members ih =>
      have hmerge := (IsSettled.obj (List.forall_mem_nil _) .nil).merge hb
      rw [merge, ha]
      rw [merge, members?, Option.getD_some] at hmerge
      cases hb with
      | obj hmembers hordered => cases hmerge with
        | obj _ hmerged =>
          -- both are in key order, so it is enough to look under every key
          refine congrArg Json.obj (eq_of_find_eq hmerged hordered fun k => ?_)
          rw [find_mergeMembers (nodup_of_pairwise hordered)]
          cases hfind : find k members with
          | none => rfl
          | some w =>
              have hmem := mem_of_find hfind
              exact congrArg some (ih _ hmem (by rfl) (hmembers _ hmem))

/-- **A document that is merged twice in a row** changes nothing the second time. -/
theorem merge_merge_self (ha : a.IsSettled) (hb : b.IsSettled) :
    (a.merge b).merge b = a.merge b := by
  induction b using Json.induction generalizing a with
  | null | bool | int | float | str | arr => rfl
  | obj members ih =>
      have honce := ha.merge hb
      have htwice := honce.merge hb
      rw [merge] at honce htwice ⊢
      rw [merge, members?, Option.getD_some] at htwice ⊢
      cases hb with
      | obj hmembers hordered => cases honce with
        | obj _ honce => cases htwice with
          | obj _ htwice =>
            have hnodup := nodup_of_pairwise hordered
            refine congrArg Json.obj (eq_of_find_eq htwice honce fun k => ?_)
            rw [find_mergeMembers hnodup, find_mergeMembers hnodup]
            cases hfind : find k members with
            | none => rfl
            | some w =>
                have hmem := mem_of_find hfind
                have hbelow := ha.obj_members?.getD_find k
                exact congrArg some (ih _ hmem hbelow (hmembers _ hmem))

/-- What stands at a path in `c`, the document `b` over the document `a`. -/
structure Overlays (a b c : Json) (path : List String) : Prop where
  /-- What is no object replaces what was there. -/
  replaced : ∀ w, b.below? path = some w → w.members? = none → c.below? path = some w
  /-- Nothing stands below what is no object. -/
  blocked : b.Blocks path → c.below? path = none
  /-- What `b` says nothing about stays. -/
  kept : b.Lacks path → c.below? path = a.below? path
  /-- Objects are merged. -/
  merged : ∀ w members, b.below? path = some w → w.members?.isSome →
    a.below? path = some (.obj members) → c.below? path = some ((Json.obj members).merge w)
  /-- An object is taken as it is where there is none to merge it with. -/
  opened : ∀ w, b.below? path = some w → (∀ members, a.below? path ≠ some (.obj members)) →
    c.below? path = some w

/-- **Two documents, path by path.** -/
theorem overlays (a : Json) (hb : b.IsSettled) (path : List String) :
    Overlays a b (a.merge b) path where
  replaced w hw hnone := by rw [below?_merge hb a hw, merge_of_members? _ hnone]
  blocked h := h.below?_merge hb a
  kept h := h.below?_merge hb a
  merged w members hw _ ha := by rw [below?_merge hb a hw, ha, Option.getD_some]
  opened w hw ha := by
    have hempty : ((a.below? path).getD .null).members?.getD [] = [] := by
      cases hbelow : a.below? path with
      | none => rfl
      | some u => cases u with
        | obj members => exact absurd hbelow (ha members)
        | _ => rfl
    rw [below?_merge hb a hw, merge_eq_self hempty (hb.below? hw)]

/-! ## any number of documents -/

variable {layers before after : List Json}

/-- The document has something at the path, or on the way there, that is no object. -/
def Decides (v : Json) (path : List String) : Prop :=
  (∃ w, v.below? path = some w ∧ w.members? = none) ∨ v.Blocks path

/-- Nothing is found at a path that a document lacks. -/
theorem Lacks.below? (h : v.Lacks path) : v.below? path = none := by
  obtain ⟨front, k, rest, members, rfl, hw, hnone⟩ := h
  rw [below?_step hw, member?, hnone, Option.bind_none]

/-- A document that does not decide what is at a path has an object there or lacks it. -/
theorem below?_or_lacks (h : ¬ v.Decides path) :
    (∃ members, v.below? path = some (.obj members)) ∨ v.Lacks path := by
  obtain ⟨w, hw⟩ | hblocks | hlacks := below?_cases v path
  · cases hmembers : w.members? with
    | none => exact absurd (.inl ⟨w, hw, hmembers⟩) h
    | some members => exact .inl ⟨members, by rw [hw, eq_obj_of_members? hmembers]⟩
  · exact absurd (.inr hblocks) h
  · exact .inr hlacks

/-- The layers up to the last one that decides what is at a path, and those after it. -/
theorem exists_last_decides (layers : List Json) (path : List String) :
    ∃ before after, layers = before ++ after ∧
      (∀ front d, before = front ++ [d] → d.Decides path) ∧ ∀ v ∈ after, ¬ v.Decides path := by
  induction layers using List.reverseRecOn with
  | nil => exact ⟨[], [], rfl, by simp, by simp⟩
  | append_singleton layers v ih =>
      by_cases hv : v.Decides path
      · refine ⟨layers ++ [v], [], by simp, fun front d heq => ?_, by simp⟩
        obtain ⟨-, heq⟩ := List.append_inj' heq rfl
        cases heq
        exact hv
      · obtain ⟨before, after, rfl, hbefore, hafter⟩ := ih
        refine ⟨before, after ++ [v], by simp, hbefore, fun u hu => ?_⟩
        obtain hu | hu := List.mem_append.1 hu
        · exact hafter u hu
        · rwa [List.mem_singleton.1 hu]

/-- Layers that lack a path leave there what was below them. -/
theorem below?_foldl_of_lacks (hlayers : ∀ v ∈ layers, v.IsSettled)
    (h : ∀ v ∈ layers, v.Lacks path) (base : Json) :
    (layers.foldl merge base).below? path = base.below? path := by
  induction layers generalizing base with
  | nil => rfl
  | cons v layers ih =>
      obtain ⟨hv, hlayers⟩ := List.forall_mem_cons.1 hlayers
      obtain ⟨hlacks, h⟩ := List.forall_mem_cons.1 h
      rw [List.foldl_cons, ih hlayers h, hlacks.below?_merge hv]

/-- Layers that decide nothing add their objects to what is there. -/
theorem below?_foldl_of_some (hlayers : ∀ v ∈ layers, v.IsSettled)
    (h : ∀ v ∈ layers, ¬ v.Decides path) {base u : Json} (hu : base.below? path = some u) :
    (layers.foldl merge base).below? path =
      some ((layers.filterMap (·.below? path)).foldl merge u) := by
  induction layers generalizing base u with
  | nil => exact hu
  | cons v layers ih =>
      obtain ⟨hv, hlayers⟩ := List.forall_mem_cons.1 hlayers
      obtain ⟨hnot, h⟩ := List.forall_mem_cons.1 h
      rw [List.foldl_cons]
      obtain ⟨members, hw⟩ | hlacks := below?_or_lacks hnot
      · rw [ih hlayers h (below?_merge hv base hw), hu, Option.getD_some]
        simp only [List.filterMap_cons, hw, List.foldl_cons]
      · rw [ih hlayers h ((hlacks.below?_merge hv base).trans hu)]
        simp only [List.filterMap_cons, hlacks.below?]

/-- Layers that decide nothing, where there is no object yet. -/
theorem below?_foldl_of_empty (hlayers : ∀ v ∈ layers, v.IsSettled)
    (h : ∀ v ∈ layers, ¬ v.Decides path) (hne : layers.filterMap (·.below? path) ≠ [])
    {base : Json} (hbase : ((base.below? path).getD .null).members?.getD [] = []) :
    (layers.foldl merge base).below? path =
      some ((layers.filterMap (·.below? path)).foldl merge (.obj [])) := by
  induction layers generalizing base with
  | nil => exact absurd rfl hne
  | cons v layers ih =>
      obtain ⟨hv, hlayers⟩ := List.forall_mem_cons.1 hlayers
      obtain ⟨hnot, h⟩ := List.forall_mem_cons.1 h
      rw [List.foldl_cons]
      obtain ⟨members, hw⟩ | hlacks := below?_or_lacks hnot
      · have hopened : ((base.below? path).getD .null).merge (.obj members) =
            (Json.obj []).merge (.obj members) := merge_congr hbase _
        rw [below?_foldl_of_some hlayers h (below?_merge hv base hw), hopened]
        simp only [List.filterMap_cons, hw, List.foldl_cons]
      · simp only [List.filterMap_cons, hlacks.below?] at hne ⊢
        exact ih hlayers h hne (by rwa [hlacks.below?_merge hv base])

/-- What layers leave at a path: what the last layer has there that decides it,
and the objects that later layers have there. -/
inductive Leaves (path : List String) : List Json → Option Json → Prop where
  /-- No layer has anything there. -/
  | untouched {layers : List Json} (hlacks : ∀ v ∈ layers, v.Lacks path) :
      Leaves path layers ((Json.obj []).below? path)
  /-- A layer assigns what is no object, and no later layer has anything there. -/
  | assigned {before after : List Json} {d w : Json} (hd : d.below? path = some w)
      (hw : w.members? = none) (hafter : ∀ v ∈ after, v.Lacks path) :
      Leaves path (before ++ d :: after) (some w)
  /-- A layer replaces what is above, and no later layer has anything there. -/
  | replaced {before after : List Json} {d : Json} (hd : d.Blocks path)
      (hafter : ∀ v ∈ after, v.Lacks path) : Leaves path (before ++ d :: after) none
  /-- The objects that layers have there since it was assigned or replaced last. -/
  | gathered {before after : List Json}
      (hbefore : ∀ front d, before = front ++ [d] → d.Decides path)
      (hafter : ∀ v ∈ after, ¬ v.Decides path) (hne : after.filterMap (·.below? path) ≠ []) :
      Leaves path (before ++ after)
        (some ((after.filterMap (·.below? path)).foldl merge (.obj [])))

/-- Layers always leave something definite at a path, or nothing. -/
theorem exists_leaves (layers : List Json) (path : List String) : ∃ r, Leaves path layers r := by
  obtain ⟨before, after, rfl, hbefore, hafter⟩ := exists_last_decides layers path
  by_cases hne : after.filterMap (·.below? path) = []
  -- nothing came after, so what the last layer left that decides is still there
  · have hlacks : ∀ v ∈ after, v.Lacks path := fun v hv => by
      obtain ⟨members, hw⟩ | hlacks := below?_or_lacks (hafter v hv)
      · rw [List.filterMap_eq_nil_iff.1 hne v hv] at hw
        cases hw
      · exact hlacks
    obtain rfl | ⟨front, d, rfl⟩ := List.eq_nil_or_concat' before
    · exact ⟨_, .untouched hlacks⟩
    · rw [List.append_assoc, List.singleton_append]
      obtain ⟨w, hd, hw⟩ | hblocks := hbefore front d rfl
      · exact ⟨_, .assigned hd hw hlacks⟩
      · exact ⟨_, .replaced hblocks hlacks⟩
  · exact ⟨_, .gathered hbefore hafter hne⟩

/-- What is at a path after a layer that decides it is no object. -/
theorem Decides.members?_merge (hb : b.IsSettled) (a : Json) (h : b.Decides path) :
    (((a.merge b).below? path).getD .null).members?.getD [] = [] := by
  obtain ⟨w, hw, hnone⟩ | hblocks := h
  · rw [below?_merge hb a hw, merge_of_members? _ hnone, Option.getD_some, hnone]
    rfl
  · rw [hblocks.below?_merge hb a]
    rfl

/-- **The merged layers have at a path what the layers leave there.** -/
theorem Leaves.below?_foldl {r : Option Json} (h : Leaves path layers r)
    (hlayers : ∀ v ∈ layers, v.IsSettled) : (layers.foldl merge (.obj [])).below? path = r := by
  cases h with
  | untouched hlacks => exact below?_foldl_of_lacks hlayers hlacks _
  | assigned hd hw hafter =>
      obtain ⟨-, hlayers⟩ := List.forall_mem_append.1 hlayers
      obtain ⟨hv, hlayers⟩ := List.forall_mem_cons.1 hlayers
      rw [List.foldl_append, List.foldl_cons, below?_foldl_of_lacks hlayers hafter]
      exact (overlays _ hv path).replaced _ hd hw
  | replaced hd hafter =>
      obtain ⟨-, hlayers⟩ := List.forall_mem_append.1 hlayers
      obtain ⟨hv, hlayers⟩ := List.forall_mem_cons.1 hlayers
      rw [List.foldl_append, List.foldl_cons, below?_foldl_of_lacks hlayers hafter]
      exact hd.below?_merge hv _
  | @gathered before after hbefore hafter hne =>
      obtain ⟨hb, ha⟩ := List.forall_mem_append.1 hlayers
      rw [List.foldl_append]
      refine below?_foldl_of_empty ha hafter hne ?_
      obtain rfl | ⟨front, d, rfl⟩ := List.eq_nil_or_concat' before
      · cases path <;> rfl
      · rw [List.foldl_concat]
        exact (hbefore front d rfl).members?_merge (hb d (by simp)) _

/-- **What layers amount to, path by path.** -/
theorem below?_foldl_eq_iff (hlayers : ∀ v ∈ layers, v.IsSettled) (path : List String)
    (r : Option Json) :
    (layers.foldl merge (.obj [])).below? path = r ↔ Leaves path layers r := by
  refine ⟨fun h => ?_, fun h => h.below?_foldl hlayers⟩
  obtain ⟨r', hr'⟩ := exists_leaves layers path
  rwa [← h, hr'.below?_foldl hlayers]

/-- **Nothing is lost** but below what a later layer has that is no object. -/
theorem isSome_below?_foldl (hlayers : ∀ v ∈ layers, v.IsSettled)
    (h : ∀ v ∈ layers, ¬ v.Blocks path) {base : Json} (hbase : (base.below? path).isSome) :
    ((layers.foldl merge base).below? path).isSome := by
  induction layers generalizing base with
  | nil => exact hbase
  | cons v layers ih =>
      obtain ⟨hv, hlayers⟩ := List.forall_mem_cons.1 hlayers
      obtain ⟨hnot, h⟩ := List.forall_mem_cons.1 h
      refine ih hlayers h ?_
      obtain ⟨w, hw⟩ | hblocks | hlacks := below?_cases v path
      · rw [below?_merge hv base hw]
        rfl
      · exact absurd hblocks hnot
      · rwa [hlacks.below?_merge hv base]

end Json

/-! ## layers -/

namespace ConfigDocument

variable {layers : List String}

/-- What a layer spells does not depend on which one it is. -/
theorem readLayer_ok {layer layer' : Nat} {text : String} {v : Json}
    (h : readLayer layer text = .ok v) : readLayer layer' text = .ok v := by
  unfold readLayer at h ⊢
  split at h
  · cases h
  · exact h

/-- **A merger is the fold of the documents that the layers spell.** -/
theorem exists_documents_of_mergeLayers {layer : Nat} {under v : Json}
    (h : mergeLayers layer under layers = .ok v) :
    ∃ docs, List.Forall₂ (fun text doc => readLayer 0 text = .ok doc) layers docs ∧
      (∀ doc ∈ docs, doc.IsSettled) ∧ v = docs.foldl Json.merge under := by
  induction layers generalizing layer under with
  | nil => cases h; exact ⟨[], .nil, List.forall_mem_nil _, rfl⟩
  | cons text layers ih =>
      rw [mergeLayers] at h
      cases hread : readLayer layer text with
      | error e => rw [hread] at h; cases h
      | ok doc =>
          rw [hread] at h
          obtain ⟨docs, hdocs, hsettled, rfl⟩ := ih h
          exact ⟨doc :: docs, .cons (readLayer_ok hread) hdocs,
            List.forall_mem_cons.2 ⟨isSettled_of_readLayer hread, hsettled⟩, rfl⟩

end ConfigDocument

/-- **Layers are merged path by path.** What stands at a path in one document
over another is decided by the other one where it has anything there that is no
object, or on the way there; it stays where an object on the way lacks the next
key; and objects are merged.  The same document once more changes nothing.  Of
any number of layers the last one counts that assigns what is at a path or
replaces what is above it, with the objects that later ones add, and nothing
else is lost.  A configuration is what the documents of its layers amount to. -/
theorem layers_merge_by_path :
    (∀ a b : Json, a.IsSettled → b.IsSettled →
      (∀ path, Overlays a b (a.merge b) path) ∧ (a.merge b).merge b = a.merge b) ∧
      (∀ layers : List Json, (∀ v ∈ layers, v.IsSettled) → ∀ path,
        (∀ r, (layers.foldl merge (.obj [])).below? path = r ↔ Leaves path layers r) ∧
          ∀ before v after, layers = before ++ v :: after → (v.below? path).isSome →
            (∀ u ∈ after, ¬ u.Blocks path) →
            ((layers.foldl merge (.obj [])).below? path).isSome) ∧
      ∀ (texts : List String) (c : ConfigDocument), ConfigDocument.ofLayers texts = .ok c →
        ∃ docs, List.Forall₂ (fun text doc => ConfigDocument.readLayer 0 text = .ok doc) texts docs ∧
          (∀ doc ∈ docs, doc.IsSettled) ∧ c.content = docs.foldl merge (.obj []) := by
  refine ⟨fun a b ha hb => ⟨overlays a hb, merge_merge_self ha hb⟩,
    fun layers hlayers path => ⟨below?_foldl_eq_iff hlayers path, ?_⟩,
    fun texts c hc => ConfigDocument.exists_documents_of_mergeLayers
      (ConfigDocument.mergeLayers_of_ofLayers hc)⟩
  rintro before v after rfl hv hafter
  obtain ⟨-, hlayers⟩ := List.forall_mem_append.1 hlayers
  obtain ⟨hsettled, hlayers⟩ := List.forall_mem_cons.1 hlayers
  rw [List.foldl_append, List.foldl_cons]
  refine isSome_below?_foldl hlayers hafter ?_
  obtain ⟨w, hw⟩ := Option.isSome_iff_exists.1 hv
  rw [below?_merge hsettled _ hw]
  rfl

/-- An object that is replaced by null and opened again does not get back what
it had before, also where the layers are texts. -/
theorem layers_merge_by_path_reopened :
    (∃ (c : ConfigDocument) (docs : List Json),
      ConfigDocument.ofLayers ["a:\n  x: 1", "a: null", "a:\n  y: 3"] = .ok c ∧
      c.text = "\x7b\"a\":\x7b\"y\":3\x7d\x7d" ∧ docs.length = 3 ∧
        c.content = docs.foldl merge (.obj [])) ∧
      let x := Json.obj [("a", .obj [("x", .int 1)])]
      let y := Json.obj [("a", .obj [("y", .int 3)])]
      let layers := [x, .obj [("a", .null)], y]
      Leaves ["a"] layers (some (.obj [("y", .int 3)])) ∧ Leaves ["a", "x"] layers none ∧
        ((layers.foldl merge (.obj [])).below? ["a", "y"]).isSome ∧
        Overlays x y (x.merge y) ["a", "x"] ∧ (x.merge y).merge y = x.merge y := by
  refine ⟨?_, ?_⟩
  · have htext : (ConfigDocument.ofLayers ["a:\n  x: 1", "a: null", "a:\n  y: 3"]).toOption.map
        ConfigDocument.text = some "\x7b\"a\":\x7b\"y\":3\x7d\x7d" := by decide +kernel
    cases hlayers : ConfigDocument.ofLayers ["a:\n  x: 1", "a: null", "a:\n  y: 3"] with
    | error e => rw [hlayers] at htext; cases htext
    | ok c =>
        rw [hlayers] at htext
        obtain ⟨docs, hdocs, -, hcontent⟩ := layers_merge_by_path.2.2 _ c hlayers
        exact ⟨c, docs, rfl, Option.some_inj.1 htext, hdocs.length_eq.symm, hcontent⟩
  · intro x y layers
    have hx : x.IsSettled := isSettled_settled x
    have hy : y.IsSettled := isSettled_settled y
    have hlayers : ∀ v ∈ layers, v.IsSettled := by
      simpa [layers] using ⟨hx, isSettled_settled (.obj [("a", .null)]), hy⟩
    have hpaths := layers_merge_by_path.2.1 layers hlayers
    obtain ⟨hoverlays, htwice⟩ := layers_merge_by_path.1 x y hx hy
    exact ⟨((hpaths _).1 _).1 rfl, ((hpaths _).1 _).1 rfl,
      (hpaths ["a", "y"]).2 [x, .obj [("a", .null)]] y [] rfl rfl (List.forall_mem_nil _),
      hoverlays _, htwice⟩

end TokenSale
