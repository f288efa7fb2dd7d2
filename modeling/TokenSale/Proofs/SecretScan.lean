import TokenSale.Proofs.Layers
import TokenSale.Proofs.Pointers

/-!
# TokenSale.Proofs.SecretScan

The search for credentials in a configuration.  It goes through the written
paths of all leaves and looks each of them up again, so it finds a string
wherever it stands, under whatever keys.  One document is missed: a string
that makes up the whole configuration, which no written path leads to.

* `Secret.find?_eq_none_iff` — what a search without result has seen;
* `Secret.pointer?_of_find?` — what is found;
* `configuration_free_of_secrets` — which layers make a configuration;
* `configuration_of_bare_credential` — the one that should not.
-/

namespace TokenSale

open Json

namespace Secret

variable {v : Json}

/-- A document that is a leaf lists the one pointer `/`. -/
theorem leaves_of_isLeaf (h : v.IsLeaf) : v.leaves = ["/"] := by
  cases v with
  | arr | obj => exact h.elim
  | _ => rfl

/-- No step leads from a leaf. -/
theorem step?_of_isLeaf (h : v.IsLeaf) (s : String) : v.step? s = none := by
  cases v with
  | arr | obj => exact h.elim
  | _ => rfl

/-- A leaf has no string in it but itself. -/
theorem eq_of_isLeaf (h : v.IsLeaf) {s : String} (hs : v.HasString s) : v = .str s := by
  cases hs with
  | here => rfl
  | item | member => exact h.elim

/-- **A search without result has seen every string**, unless the document is
nothing but one. -/
theorem find?_eq_none_iff (hv : v.IsSettled) :
    find? v = none ↔ ∀ s, v.HasString s → isLikely s = true → v = .str s := by
  by_cases hwhole : v.IsLeaf
  · refine iff_of_true ?_ fun s hs _ => eq_of_isLeaf hwhole hs
    simp [find?, leaves_of_isLeaf hwhole, pointer?_slash, step?_of_isLeaf hwhole]
  rw [find?, List.find?_eq_none]
  constructor
  · intro h s hs hlikely
    obtain ⟨path, hleaf⟩ := hs.exists_leafAt
    refine absurd ?_ (h _ ((mem_leaves_iff hwhole).2 ⟨path, _, hleaf, rfl⟩))
    simpa [hleaf.pointer?_pathText hv, Json.string?] using hlikely
  · intro h text htext hfound
    obtain ⟨path, leaf, hleaf, rfl⟩ := (mem_leaves_iff hwhole).1 htext
    rw [hleaf.pointer?_pathText hv, Option.bind_some, Option.any_eq_true] at hfound
    obtain ⟨s, hs, hlikely⟩ := hfound
    have hstr : leaf = .str s := by
      cases leaf <;> cases hs
      rfl
    subst hstr
    rw [h s (hasString_of_at? (hleaf.at? hv)) hlikely] at hwhole
    exact hwhole trivial

/-- **What is found is a string that looks like a credential.** -/
theorem pointer?_of_find? {leaf : String} (h : find? v = some leaf) :
    ∃ s, v.pointer? leaf = some (.str s) ∧ isLikely s = true := by
  have hfound := List.find?_some (show v.leaves.find? _ = some leaf from h)
  obtain ⟨s, hs, hlikely⟩ := (Option.any_eq_true ..).1 hfound
  obtain ⟨w, hw, hws⟩ := Option.bind_eq_some_iff.1 hs
  cases w with
  | str t => cases hws; exact ⟨s, hw, hlikely⟩
  | _ => cases hws

end Secret

/-- **No pasted credential gets through, unless it is all there is.** Layers
make a configuration exactly if no string in what they amount to looks like a
credential, at whatever depth and under whatever keys, or that string is the
whole document; and where a credential is named, it stands there. -/
theorem configuration_free_of_secrets (layers : List String) :
    (∀ c, ConfigDocument.ofLayers layers = .ok c ↔
      ConfigDocument.mergeLayers 0 (.obj []) layers = .ok c.content ∧
        ∀ s, c.content.HasString s → Secret.isLikely s = true → c.content = .str s) ∧
      ∀ leaf, ConfigDocument.ofLayers layers = .error (.secretFound leaf) →
        ∃ content s, ConfigDocument.mergeLayers 0 (.obj []) layers = .ok content ∧
          content.pointer? leaf = some (.str s) ∧ Secret.isLikely s = true := by
  unfold ConfigDocument.ofLayers
  cases hmerge : ConfigDocument.mergeLayers 0 (.obj []) layers with
  | error e =>
      refine ⟨fun c => iff_of_false nofun (fun h => nomatch h.1), fun leaf h => ?_⟩
      cases h
      exact absurd rfl (ConfigDocument.ne_secretFound_of_mergeLayers hmerge leaf)
  | ok content =>
      have hsettled := ConfigDocument.isSettled_of_mergeLayers
        (.obj (List.forall_mem_nil _) .nil) hmerge
      have hscan := Secret.find?_eq_none_iff hsettled
      simp only [Except.ok.injEq]
      cases hfind : Secret.find? content with
      | none =>
          refine ⟨fun c => ⟨fun h => ?_, fun ⟨h, _⟩ => ?_⟩, nofun⟩
          · cases h
            exact ⟨rfl, hscan.1 hfind⟩
          · rw [h]
      | some leaf =>
          refine ⟨fun c => iff_of_false nofun fun ⟨h, hfree⟩ => ?_, fun leaf' h => ?_⟩
          · rw [← h, ← hscan, hfind] at hfree
            cases hfree
          · cases h
            obtain ⟨s, hs⟩ := Secret.pointer?_of_find? hfind
            exact ⟨content, s, rfl, hs⟩

/-- A credential that is the whole configuration gets through. -/
theorem configuration_of_bare_credential :
    ∃ c, ConfigDocument.ofLayers ["sk_live_abcdefgh"] = .ok c ∧
      c.content.HasString "sk_live_abcdefgh" ∧ Secret.isLikely "sk_live_abcdefgh" = true := by
  have hstring : (ConfigDocument.ofLayers ["sk_live_abcdefgh"]).toOption.bind
      (fun c => c.content.string?) = some "sk_live_abcdefgh" := by decide +kernel
  cases hlayers : ConfigDocument.ofLayers ["sk_live_abcdefgh"] with
  | error e => rw [hlayers] at hstring; cases hstring
  | ok c =>
      rw [hlayers] at hstring
      obtain ⟨content⟩ := c
      cases content with
      | str s => cases hstring; exact ⟨_, rfl, .here, by decide +kernel⟩
      | _ => cases hstring

end TokenSale
