import TokenSale.Proofs.JsonOrder
import TokenSale.Setup.Layers

/-!
# TokenSale.Proofs.Layers

The document that layers amount to has its members in key order at every
depth, whatever order the layers have them in.

* `IsSettled.find`, `IsSettled.merge` — what stands below, and one document
  over another;
* `ConfigDocument.isSettled_of_mergeLayers` — all layers;
* `ConfigDocument.mergeLayers_of_ofLayers` — a configuration is their merger.
-/

namespace TokenSale

open Json Directory

namespace Json

variable {a b v : Json} {k : String} {members : List (String × Json)}

/-- What stands under a key of an object that is settled is settled. -/
theorem IsSettled.find (h : (Json.obj members).IsSettled) (hv : Directory.find k members = some v) :
    v.IsSettled := by
  cases h with
  | obj hmembers _ => exact hmembers _ (mem_of_find hv)

/-- The members of a settled object are settled, and so is null for those it lacks.
-/
theorem IsSettled.getD_find (h : (Json.obj members).IsSettled) (k : String) :
    ((Directory.find k members).getD .null).IsSettled := by
  cases hfind : Directory.find k members with
  | none => exact .null
  | some v => exact h.find hfind

/-- What is no object has no members. -/
theorem IsSettled.obj_members? (h : v.IsSettled) : (Json.obj (v.members?.getD [])).IsSettled := by
  cases v with
  | obj members => exact h
  | _ => exact .obj (List.forall_mem_nil _) .nil

/-- A document over another, both settled. -/
theorem IsSettled.merge (ha : a.IsSettled) (hb : b.IsSettled) : (a.merge b).IsSettled := by
  induction b using Json.induction generalizing a with
  | null | bool | int | float | str | arr => exact hb
  | obj members ih => cases hb with
    | obj hmembers hordered =>
      clear hordered
      rw [Json.merge]
      have hunder := ha.obj_members?
      -- every member of `b` goes into what the ones before it left
      generalize a.members?.getD [] = under at hunder ⊢
      induction members generalizing under with
      | nil => exact hunder
      | cons p members ih' =>
          obtain ⟨k, b⟩ := p
          obtain ⟨hb, hmembers⟩ := List.forall_mem_cons.1 hmembers
          obtain ⟨ihb, ih⟩ := List.forall_mem_cons.1 ih
          have hbelow := hunder.getD_find k
          cases hunder with
          | obj hvalues hordered =>
            rw [mergeMembers]
            refine ih' ih hmembers _ (.obj (fun q hq => ?_) (pairwise_place _ _ hordered))
            cases mem_place hq with
            | inl heq => rw [heq]; exact ihb hbelow hb
            | inr hq => exact hvalues q hq

end Json

namespace ConfigDocument

theorem isSettled_of_readLayer {layer : Nat} {text : String} {v : Json}
    (h : readLayer layer text = .ok v) : v.IsSettled := by
  unfold readLayer at h
  split at h
  · cases h
  split at h
  · cases h
  · cases h
    exact isSettled_settled _

/-- What layers amount to is settled. -/
theorem isSettled_of_mergeLayers {layer : Nat} {under v : Json} {layers : List String}
    (hunder : under.IsSettled) (h : mergeLayers layer under layers = .ok v) : v.IsSettled := by
  induction layers generalizing layer under with
  | nil => cases h; exact hunder
  | cons text layers ih =>
      rw [mergeLayers] at h
      cases hread : readLayer layer text with
      | error e => rw [hread] at h; cases h
      | ok json =>
          rw [hread] at h
          exact ih (hunder.merge (isSettled_of_readLayer hread)) h

/-- A configuration is what its layers merge into. -/
theorem mergeLayers_of_ofLayers {layers : List String} {c : ConfigDocument}
    (h : ofLayers layers = .ok c) : mergeLayers 0 (.obj []) layers = .ok c.content := by
  unfold ofLayers at h
  cases hmerge : mergeLayers 0 (.obj []) layers with
  | error e => rw [hmerge] at h; cases h
  | ok content =>
      rw [hmerge] at h
      dsimp only at h
      split at h
      · cases h
      · cases h
        rfl

/-- Layers that cannot be merged are not read. -/
theorem ne_secretFound_of_mergeLayers {layer : Nat} {under : Json} {layers : List String}
    {e : LayerError} (h : mergeLayers layer under layers = .error e) (leaf : String) :
    e ≠ .secretFound leaf := by
  induction layers generalizing layer under with
  | nil => cases h
  | cons text layers ih =>
      rw [mergeLayers] at h
      cases hread : readLayer layer text with
      | error e' =>
          rw [hread] at h
          cases h
          unfold readLayer at hread
          split at hread
          · cases hread; nofun
          split at hread
          · cases hread; nofun
          · cases hread
      | ok json =>
          rw [hread] at h
          exact ih h

end ConfigDocument

end TokenSale
