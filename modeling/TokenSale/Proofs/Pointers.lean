import TokenSale.Json.Pointer
import TokenSale.Proofs.JsonOrder

/-!
# TokenSale.Proofs.Pointers

The written path of a leaf leads to the leaf, whatever its keys are made of,
and to no other.  The only exception is a leaf that is the whole document.

* `pathOfText?_pathText` — a path is read from its written form;
* `pointer?_append` — a written path is followed in two parts;
* `LeafAt`, `mem_leaves_iff` — the leaves of a document, and where they stand;
* `LeafAt.pointer?_pathText` — the written path of a leaf leads to it;
* `nodup_leaves` — no two leaves go by the same written path;
* `HasString`, `HasString.exists_leafAt` — every string is a leaf.
-/

namespace TokenSale.Json

open Directory

/-! ## written paths -/

theorem replaceEscape_cons {digit c a : Char} (h : a ≠ '~') (cs : List Char) :
    replaceEscape digit c (a :: cs) = a :: replaceEscape digit c cs := by
  cases cs with
  | nil => rfl
  | cons b cs => simp [replaceEscape, h]

/-- The first pass leaves the escapes of tildes. -/
theorem replaceEscape_escapeStep (cs : List Char) :
    replaceEscape '1' '/' (escapeStep cs) =
      cs.flatMap fun c => if c = '~' then ['~', '0'] else [c] := by
  induction cs with
  | nil => rfl
  | cons c cs ih =>
      rw [escapeStep, List.flatMap_cons, ← escapeStep, List.flatMap_cons, ← ih]
      by_cases htilde : c = '~'
      · subst htilde
        simp [replaceEscape, replaceEscape_cons]
      by_cases hslash : c = '/'
      · subst hslash
        simp [replaceEscape]
      · simp [htilde, hslash, replaceEscape_cons]

/-- A step comes back from its escapes. -/
theorem unescapeStep_escapeStep (cs : List Char) : unescapeStep (escapeStep cs) = cs := by
  rw [unescapeStep, replaceEscape_escapeStep]
  induction cs with
  | nil => rfl
  | cons c cs ih =>
      rw [List.flatMap_cons]
      by_cases htilde : c = '~'
      · subst htilde
        simp [replaceEscape, ih]
      · simp [htilde, replaceEscape_cons, ih]

/-- An escaped step contains no separator. -/
theorem slash_notMem_escapeStep (cs : List Char) : '/' ∉ escapeStep cs := by
  intro h
  obtain ⟨c, -, hc⟩ := List.mem_flatMap.1 h
  split at hc
  · simp at hc
  split at hc
  · simp at hc
  next hslash => exact hslash (List.mem_singleton.1 hc).symm

theorem splitSteps_of_notMem {step : List Char} (h : '/' ∉ step) : splitSteps step = [step] := by
  induction step with
  | nil => rfl
  | cons c step ih =>
      obtain ⟨hc, hstep⟩ := not_or.1 (mt List.mem_cons.2 h)
      rw [splitSteps, if_neg (Ne.symm hc), ih hstep]

theorem splitSteps_ne_nil (cs : List Char) : splitSteps cs ≠ [] := by
  cases cs with
  | nil => simp [splitSteps]
  | cons c cs =>
      rw [splitSteps]
      split
      · simp
      · split <;> simp

/-- A slash is where a text is split. -/
theorem splitSteps_append (cs rest : List Char) :
    splitSteps (cs ++ '/' :: rest) = splitSteps cs ++ splitSteps rest := by
  induction cs with
  | nil => simp [splitSteps]
  | cons c cs ih =>
      rw [List.cons_append, splitSteps, splitSteps, ih]
      by_cases hc : c = '/'
      · rw [if_pos hc, if_pos hc, List.cons_append]
      · rw [if_neg hc, if_neg hc]
        cases hfirst : splitSteps cs with
        | nil => exact absurd hfirst (splitSteps_ne_nil cs)
        | cons first more => rfl

/-- The parts of a written path are its steps. -/
theorem splitSteps_flatMap (s : String) (path : List String) :
    splitSteps (escapeStep s.toList ++ path.flatMap fun s => '/' :: escapeStep s.toList) =
      (s :: path).map fun s => escapeStep s.toList := by
  induction path generalizing s with
  | nil => simp [splitSteps_of_notMem (slash_notMem_escapeStep _)]
  | cons t path ih =>
      rw [List.flatMap_cons, List.cons_append, splitSteps_append, ih,
        splitSteps_of_notMem (slash_notMem_escapeStep _)]
      rfl

/-- **A path is read from its written form.** -/
theorem pathOfText?_pathText (path : List String) : pathOfText? (pathText path) = some path := by
  rw [pathOfText?, pathText, String.toList_ofList]
  cases path with
  | nil => rfl
  | cons s path =>
      rw [List.flatMap_cons, List.cons_append]
      simp only [if_true, splitSteps_flatMap, List.map_map, Function.comp_def,
        unescapeStep_escapeStep, String.ofList_toList, List.map_id']

/-- Different paths are written differently. -/
theorem pathText_injective {path path' : List String} (h : pathText path = pathText path') :
    path = path' := by
  have hpath := pathOfText?_pathText path'
  rw [← h, pathOfText?_pathText, Option.some.injEq] at hpath
  exact hpath

/-- A text with a slash in it spells the steps before and those from there on. -/
theorem pathOfText?_append (a b : String) : pathOfText? (a ++ "/" ++ b) =
    (pathOfText? a).bind fun path => (pathOfText? ("/" ++ b)).map fun more => path ++ more := by
  have hslash : "/".toList = ['/'] := rfl
  simp only [pathOfText?, String.toList_append, hslash, List.append_assoc, List.singleton_append]
  cases a.toList with
  | nil => simp
  | cons c cs =>
      simp only [List.cons_append, splitSteps_append, if_true]
      split <;> simp

theorem at?_append (v : Json) (path more : List String) :
    v.at? (path ++ more) = (v.at? path).bind fun w => w.at? more := by
  induction path generalizing v with
  | nil => rfl
  | cons s path ih =>
      rw [List.cons_append, at?, at?, Option.bind_assoc]
      exact congrArg _ (funext fun w => ih w)

/-- **What stands at a written path stands at the rest of it** in what stands at
its beginning. -/
theorem pointer?_append (v : Json) (a b : String) :
    v.pointer? (a ++ "/" ++ b) = (v.pointer? a).bind fun w => w.pointer? ("/" ++ b) := by
  unfold pointer?
  rw [pathOfText?_append]
  cases pathOfText? a with
  | none => rfl
  | some path =>
      cases pathOfText? ("/" ++ b) with
      | none => cases h : v.at? path <;> simp [h]
      | some more => exact at?_append v path more

/-- A written index is read back. -/
theorem indexOfStep?_toString (i : Nat) : indexOfStep? (toString i) = some i := by
  have hchars : (toString i).toList = Nat.toDigits 10 i := Nat.toList_repr
  have hdigits : (Nat.toDigits 10 i).all Char.isDigit = true := List.all_eq_true.2 fun c hc =>
    Nat.isDigit_of_mem_toDigits (by decide) (by decide) hc
  have hzero : ¬ ((Nat.toDigits 10 i).head? = some '0' ∧ 1 < (Nat.toDigits 10 i).length) :=
    fun ⟨hhead, hlength⟩ => by
      rw [toDigits_eq_of_head hhead] at hlength
      simp at hlength
  simp only [indexOfStep?, hchars, Nat.ofDigitChars_ten_toDigits]
  rw [if_neg]
  simp [Nat.toDigits_ne_nil, hdigits, hzero]

/-! ## leaves -/

/-- Neither an array nor an object. -/
def IsLeaf : Json → Prop
  | arr _ | obj _ => False
  | null | bool _ | int _ | float _ | str _ => True

/-- A leaf of a document, and the steps that lead to it. -/
inductive LeafAt : Json → List String → Json → Prop
  | here {v : Json} (h : v.IsLeaf) : LeafAt v [] v
  | item {items : List Json} {i : Nat} {v leaf : Json} {path : List String}
    (hv : items[i]? = some v) (h : LeafAt v path leaf) :
    LeafAt (.arr items) (toString i :: path) leaf
  | member {members : List (String × Json)} {q : String × Json} {leaf : Json}
    {path : List String} (hq : q ∈ members) (h : LeafAt q.2 path leaf) :
    LeafAt (.obj members) (q.1 :: path) leaf

namespace LeafAt

variable {v leaf leaf' : Json} {path : List String}

/-- **A leaf stands at its path.** -/
theorem at? (hv : v.IsSettled) (h : v.LeafAt path leaf) : v.at? path = some leaf := by
  induction h with
  | here h => rfl
  | @item items i w leaf path hw h ih =>
      cases hv with
      | arr hitems =>
        have hrest := ih (hitems w (List.mem_of_getElem? hw))
        rw [Json.at?, step?, indexOfStep?_toString, Option.bind_some, hw, Option.bind_some, hrest]
  | @member members q leaf path hq h ih =>
      cases hv with
      | obj hmembers hordered =>
        have hrest := ih (hmembers q hq)
        rw [Json.at?, step?, find_of_mem hordered hq, Option.bind_some, hrest]

/-- **The written path of a leaf leads to it.** -/
theorem pointer?_pathText (hv : v.IsSettled) (h : v.LeafAt path leaf) :
    v.pointer? (pathText path) = some leaf := by
  rw [pointer?, pathOfText?_pathText, Option.bind_some, h.at? hv]

/-- No other leaf stands there. -/
theorem unique (hv : v.IsSettled) (h : v.LeafAt path leaf) (h' : v.LeafAt path leaf') :
    leaf = leaf' := by
  have hat := h.at? hv
  rw [h'.at? hv, Option.some.injEq] at hat
  exact hat.symm

theorem ne_nil (hwhole : ¬ v.IsLeaf) (h : v.LeafAt path leaf) : path ≠ [] := by
  cases h with
  | here h => exact absurd h hwhole
  | item hv h => exact List.cons_ne_nil _ _
  | member hq h => exact List.cons_ne_nil _ _

end LeafAt

/-- The leaves of items are those of each, under its index. -/
theorem mem_leafPathsOfItems_iff {path : List String} {i : Nat} {items : List Json}
    {p : List String × Json} : p ∈ leafPathsOfItems path i items ↔
      ∃ j v, items[j]? = some v ∧ p ∈ leafPaths (path ++ [toString (i + j)]) v := by
  induction items generalizing i with
  | nil => simp [leafPathsOfItems]
  | cons v items ih =>
      rw [leafPathsOfItems, List.mem_append, ih]
      constructor
      · rintro (h | ⟨j, w, hw, hp⟩)
        · exact ⟨0, v, rfl, h⟩
        · exact ⟨j + 1, w, hw, by rwa [Nat.add_comm j, ← Nat.add_assoc]⟩
      · rintro ⟨_ | j, w, hw, hp⟩
        · cases hw
          exact .inl hp
        · exact .inr ⟨j, w, hw, by rwa [Nat.add_assoc, Nat.add_comm 1]⟩

theorem mem_leafPathsOfMembers_iff {path : List String} {members : List (String × Json)}
    {p : List String × Json} : p ∈ leafPathsOfMembers path members ↔
      ∃ q ∈ members, p ∈ leafPaths (path ++ [q.1]) q.2 := by
  induction members with
  | nil => simp [leafPathsOfMembers]
  | cons q members ih => simp [leafPathsOfMembers, ih]

/-- **The leaves that are listed are those that there are**, each at the path of
the document and on. -/
theorem mem_leafPaths_iff {v leaf : Json} {path steps : List String} :
    (steps, leaf) ∈ leafPaths path v ↔ ∃ rest, steps = path ++ rest ∧ v.LeafAt rest leaf := by
  induction v using Json.induction generalizing path with
  | null | bool | int | float | str =>
      rw [leafPaths]
      · constructor
        · intro h
          cases List.mem_singleton.1 h
          exact ⟨[], (List.append_nil _).symm, .here trivial⟩
        · rintro ⟨rest, rfl, h⟩
          cases h
          rw [List.append_nil]
          exact List.mem_singleton_self _
      all_goals nofun
  | arr items ih =>
      rw [leafPaths, mem_leafPathsOfItems_iff]
      constructor
      · rintro ⟨j, v, hv, hp⟩
        obtain ⟨rest, hpath, h⟩ := (ih v (List.mem_of_getElem? hv)).1 hp
        exact ⟨toString j :: rest, by simpa using hpath, .item hv h⟩
      · rintro ⟨rest, hpath, h⟩
        cases h with
        | here h => exact h.elim
        | @item _ j v _ rest hv h =>
            exact ⟨j, v, hv, (ih v (List.mem_of_getElem? hv)).2 ⟨rest, by simpa using hpath, h⟩⟩
  | obj members ih =>
      rw [leafPaths, mem_leafPathsOfMembers_iff]
      constructor
      · rintro ⟨q, hq, hp⟩
        obtain ⟨rest, hpath, h⟩ := (ih q hq).1 hp
        exact ⟨q.1 :: rest, by simpa using hpath, .member hq h⟩
      · rintro ⟨rest, hpath, h⟩
        cases h with
        | here h => exact h.elim
        | @member _ q _ rest hq h =>
            exact ⟨q, hq, (ih q hq).2 ⟨rest, by simpa using hpath, h⟩⟩

/-- The leaves of a document are listed by their written paths. -/
theorem leaves_eq {v : Json} (hwhole : ¬ v.IsLeaf) :
    v.leaves = ((v.leafPaths []).map Prod.fst).map pathText := by
  rw [leaves, List.map_map]
  refine List.map_congr_left fun p hp => ?_
  obtain ⟨rest, hpath, h⟩ := mem_leafPaths_iff.1 hp
  rw [List.nil_append] at hpath
  exact if_neg (by simpa [hpath] using h.ne_nil hwhole)

/-- The written paths of the leaves of an array or an object. -/
theorem mem_leaves_iff {v : Json} (hwhole : ¬ v.IsLeaf) {text : String} :
    text ∈ v.leaves ↔ ∃ path leaf, v.LeafAt path leaf ∧ text = pathText path := by
  rw [leaves_eq hwhole, List.map_map, List.mem_map]
  constructor
  · rintro ⟨⟨path, leaf⟩, hp, rfl⟩
    obtain ⟨rest, rfl, h⟩ := mem_leafPaths_iff.1 hp
    exact ⟨_, leaf, h, rfl⟩
  · rintro ⟨path, leaf, h, rfl⟩
    exact ⟨(path, leaf), mem_leafPaths_iff.2 ⟨path, rfl, h⟩, rfl⟩

/-- Leaves that go on from a path by different steps have different paths. -/
theorem ne_of_mem_leafPaths {v w : Json} {path : List String} {s t : String}
    {p q : List String × Json} (hst : s ≠ t) (hp : p ∈ leafPaths (path ++ [s]) v)
    (hq : q ∈ leafPaths (path ++ [t]) w) : p.1 ≠ q.1 := by
  obtain ⟨rest, hpath, -⟩ := mem_leafPaths_iff.1 hp
  obtain ⟨rest', hpath', -⟩ := mem_leafPaths_iff.1 hq
  simp [hpath, hpath', hst]

theorem nodup_leafPathsOfItems {path : List String} {items : List Json}
    (h : ∀ v ∈ items, ∀ path, ((leafPaths path v).map Prod.fst).Nodup) (i : Nat) :
    ((leafPathsOfItems path i items).map Prod.fst).Nodup := by
  induction items generalizing i with
  | nil => exact List.nodup_nil
  | cons v items ih =>
      obtain ⟨hv, hrest⟩ := List.forall_mem_cons.1 h
      rw [leafPathsOfItems, List.map_append, List.nodup_append, List.forall_mem_map]
      refine ⟨hv _, ih hrest _, fun p hp => List.forall_mem_map.2 fun q hq => ?_⟩
      obtain ⟨j, w, -, hw⟩ := mem_leafPathsOfItems_iff.1 hq
      refine ne_of_mem_leafPaths (fun hsame => ?_) hp hw
      have hindex := congrArg indexOfStep? hsame
      rw [indexOfStep?_toString, indexOfStep?_toString, Option.some.injEq] at hindex
      omega

theorem nodup_leafPathsOfMembers {path : List String} {members : List (String × Json)}
    (h : ∀ q ∈ members, ∀ path, ((leafPaths path q.2).map Prod.fst).Nodup)
    (hkeys : (members.map Prod.fst).Nodup) :
    ((leafPathsOfMembers path members).map Prod.fst).Nodup := by
  induction members with
  | nil => exact List.nodup_nil
  | cons q members ih =>
      obtain ⟨hq, hrest⟩ := List.forall_mem_cons.1 h
      obtain ⟨hfirst, hkeys⟩ := List.nodup_cons.1 hkeys
      rw [leafPathsOfMembers, List.map_append, List.nodup_append, List.forall_mem_map]
      refine ⟨hq _, ih hrest hkeys, fun p hp => List.forall_mem_map.2 fun r hr => ?_⟩
      obtain ⟨q', hq', hr'⟩ := mem_leafPathsOfMembers_iff.1 hr
      refine ne_of_mem_leafPaths (fun hsame => ?_) hp hr'
      exact hfirst (hsame ▸ List.mem_map_of_mem hq')

/-- No two leaves have the same path. -/
theorem nodup_leafPaths {v : Json} (hv : v.IsSettled) (path : List String) :
    ((leafPaths path v).map Prod.fst).Nodup := by
  induction v using Json.induction generalizing path with
  | null | bool | int | float | str =>
      rw [leafPaths]
      · simp
      all_goals nofun
  | arr items ih => cases hv with
    | arr hitems =>
      rw [leafPaths]
      exact nodup_leafPathsOfItems (fun v hv path => ih v hv (hitems v hv) path) 0
  | obj members ih => cases hv with
    | obj hmembers hordered =>
      rw [leafPaths]
      exact nodup_leafPathsOfMembers (fun q hq path => ih q hq (hmembers q hq) path)
        (nodup_of_pairwise hordered)

/-- **No two leaves go by the same written path.** -/
theorem nodup_leaves {v : Json} (hv : v.IsSettled) (hwhole : ¬ v.IsLeaf) : v.leaves.Nodup := by
  rw [leaves_eq hwhole]
  exact List.Pairwise.map pathText (fun _ _ hne h => hne (pathText_injective h))
    (nodup_leafPaths hv [])

/-- What goes by the single slash is looked for under an empty key. -/
theorem pointer?_slash (v : Json) : v.pointer? "/" = v.step? "" := by
  have hpath : pathOfText? "/" = some [""] := by decide
  rw [pointer?, hpath, Option.bind_some, at?]
  cases v.step? "" <;> rfl

/-! ## strings -/

/-- A string stands in the document, at whatever depth. -/
inductive HasString (s : String) : Json → Prop
  | here : HasString s (.str s)
  | item {items : List Json} {v : Json} (hv : v ∈ items) (h : HasString s v) :
    HasString s (.arr items)
  | member {members : List (String × Json)} {p : String × Json} (hp : p ∈ members)
    (h : HasString s p.2) : HasString s (.obj members)

/-- What is found at a path is in the document. -/
theorem hasString_of_at? {v : Json} {path : List String} {s : String}
    (h : v.at? path = some (.str s)) : v.HasString s := by
  induction path generalizing v with
  | nil => cases h; exact .here
  | cons t path ih =>
      rw [at?, Option.bind_eq_some_iff] at h
      obtain ⟨w, hw, h⟩ := h
      cases v with
      | arr items =>
          obtain ⟨i, -, hi⟩ := Option.bind_eq_some_iff.1 hw
          exact .item (List.mem_of_getElem? hi) (ih h)
      | obj members => exact .member (mem_of_find hw) (ih h)
      | _ => cases hw

/-- **Every string is a leaf.** -/
theorem HasString.exists_leafAt {v : Json} {s : String} (h : v.HasString s) :
    ∃ path, v.LeafAt path (.str s) := by
  induction h with
  | here => exact ⟨[], .here trivial⟩
  | item hv _ ih =>
      obtain ⟨path, hpath⟩ := ih
      obtain ⟨i, hi⟩ := List.getElem?_of_mem hv
      exact ⟨toString i :: path, .item hi hpath⟩
  | @member _ p hp _ ih =>
      obtain ⟨path, hpath⟩ := ih
      exact ⟨p.1 :: path, .member hp hpath⟩

end TokenSale.Json
