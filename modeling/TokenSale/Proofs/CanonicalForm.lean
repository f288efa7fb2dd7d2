import TokenSale.Proofs.JournalChain
import TokenSale.Proofs.Layers

/-!
# TokenSale.Proofs.CanonicalForm

The canonical text of a document stands for all documents that are alike, and
for no others; reading it gives one of them back, as deep as documents are
read.

* `Json.canonical_eq_iff` — documents have one text exactly if they are alike;
* `Json.parse?_canonical` — what is read from the text;
* `ConfigDocument.hash_eq_iff` — configurations have one hash exactly if they
  are the same;
* `canonical_normal_form` — all of it.
-/

namespace TokenSale

namespace Json

variable {v w : Json}

/-- The canonical text is the settled document, written without gaps. -/
theorem toList_canonical (v : Json) : v.canonical.toList = write v.settled [] :=
  String.toList_ofList

/-- **Documents have one canonical text exactly if they are alike.** -/
theorem canonical_eq_iff (hv : v.IsDocument Binary64.ReadsBack)
    (hw : w.IsDocument Binary64.ReadsBack) : v.canonical = w.canonical ↔ Alike v w := by
  rw [← hv.settled_eq_iff hw]
  refine ⟨fun h => ?_, fun h => by rw [canonical, h, canonical]⟩
  refine eq_of_write_eq hv.isValue_settled.isDocument hw.isValue_settled.isDocument ?_
  rw [← toList_canonical, h, toList_canonical]

/-- The text of a document is that of what is read back. -/
theorem canonical_settled (v : Json) : v.settled.canonical = v.canonical := by
  rw [canonical, (isSettled_settled v).settled_eq, canonical]

/-- **The canonical text gives back the document**, unless it is nested too
deep. -/
theorem parse?_canonical (hv : v.IsDocument Binary64.ReadsBack) :
    parse? v.canonical = if v.depth ≤ maxDepth then some v.settled else none := by
  rw [parse?, ofText?, toList_canonical, ofChars?_write_eq hv.isValue_settled.isDocument,
    hv.depth_settled]
  split
  · rw [Option.map_some, (isSettled_settled v).settled_eq]
  · rfl

end Json

open Json

namespace ConfigDocument

variable {layers layers' : List String} {c c' : ConfigDocument}

/-- The content of a configuration is settled. -/
theorem isSettled_of_ofLayers (h : ofLayers layers = .ok c) : c.content.IsSettled :=
  isSettled_of_mergeLayers (.obj (List.forall_mem_nil _) .nil) (mergeLayers_of_ofLayers h)

/-- **Configurations have one hash exactly if they are the same.** -/
theorem hash_eq_iff (h : ofLayers layers = .ok c) (h' : ofLayers layers' = .ok c')
    (hc : c.content.IsDocument Binary64.ReadsBack) (hc' : c'.content.IsDocument Binary64.ReadsBack)
    (hcollide : ¬ Digest.Collide c.text c'.text) : c.hash = c'.hash ↔ c.content = c'.content := by
  refine ⟨fun hhash => ?_, fun hcontent => by rw [hash, hash, text, text, hcontent]⟩
  have htext : c.content.canonical = c'.content.canonical :=
    Digest.eq_of_sha256Hex_eq hhash hcollide
  have hsettled := (hc.settled_eq_iff hc').2 ((canonical_eq_iff hc hc').1 htext)
  rwa [(isSettled_of_ofLayers h).settled_eq, (isSettled_of_ofLayers h').settled_eq] at hsettled

end ConfigDocument

/-- **Canonical text is a faithful normal form.** Two documents have one text
exactly if they differ in the order of object members only, and so have two
entries of a journal; the text gives back the document, as deep as documents
are read, and the same text again; and two configurations have one hash
exactly if they are the same, unless digests collide. -/
theorem canonical_normal_form :
    (∀ v w : Json, v.IsDocument Binary64.ReadsBack → w.IsDocument Binary64.ReadsBack →
      (v.canonical = w.canonical ↔ Alike v w)) ∧
      (∀ e f : JournalEntry, e.encode.IsDocument Binary64.ReadsBack →
        f.encode.IsDocument Binary64.ReadsBack → (e.line = f.line ↔ Alike e.encode f.encode)) ∧
      (∀ v : Json, v.IsDocument Binary64.ReadsBack →
        (parse? v.canonical = if v.depth ≤ maxDepth then some v.settled else none) ∧
          Alike v v.settled ∧ v.settled.canonical = v.canonical) ∧
      ∀ (layers layers' : List String) (c c' : ConfigDocument),
        ConfigDocument.ofLayers layers = .ok c → ConfigDocument.ofLayers layers' = .ok c' →
        c.content.IsDocument Binary64.ReadsBack → c'.content.IsDocument Binary64.ReadsBack →
        ¬ Digest.Collide c.text c'.text → (c.hash = c'.hash ↔ c.content = c'.content) :=
  ⟨fun _ _ => canonical_eq_iff, fun _ _ => canonical_eq_iff,
    fun v hv => ⟨parse?_canonical hv, hv.alike_settled, canonical_settled v⟩,
    fun _ _ _ _ => ConfigDocument.hash_eq_iff⟩

/-- A document with one member. -/
def Sample.titled (title : String) : Json := .obj [("a", .str title)]

theorem Sample.isDocument_titled (title : String) {ok : Binary64 → Prop} :
    (titled title).IsDocument ok :=
  .obj (by simpa using .str _) (by simp)

/-- The title of such a document. -/
def Sample.titleOf? : Json → Option String
  | .obj [(key, .str title)] => if key = "a" then some title else none
  | _ => none

/-- Layers that merge into such a document, by its title. -/
theorem Sample.ofLayers_eq_titled {layers : List String} {title : String}
    (h : ((ConfigDocument.ofLayers layers).toOption.bind fun c => titleOf? c.content) = some title) :
    ConfigDocument.ofLayers layers = .ok ⟨titled title⟩ := by
  cases hlayers : ConfigDocument.ofLayers layers with
  | error e => rw [hlayers] at h; cases h
  | ok c =>
      obtain ⟨content⟩ := c
      rw [hlayers] at h
      simp only [Except.toOption, Option.bind_some, titleOf?] at h
      split at h
      next =>
        split at h
        next hkey => rw [← Option.some.inj h, hkey, titled]
        next => cases h
      next => cases h

theorem Sample.ofLayers_titled : ConfigDocument.ofLayers ["a: x"] = .ok ⟨titled "x"⟩ :=
  ofLayers_eq_titled (by decide +kernel)

/-- The second layer has the last word. -/
theorem Sample.ofLayers_overridden :
    ConfigDocument.ofLayers ["a: y", "a: x"] = .ok ⟨titled "x"⟩ :=
  ofLayers_eq_titled (by decide +kernel)

theorem Sample.ofLayers_other : ConfigDocument.ofLayers ["a: y"] = .ok ⟨titled "y"⟩ :=
  ofLayers_eq_titled (by decide +kernel)

/-- The order of members does not matter, and the text is read back; a
configuration has the same hash from one layer and from two, and another one has
another hash. -/
theorem canonical_normal_form_two_orders :
    (Json.obj [("b", .arr [.int 1]), ("a", .str "x")]).canonical =
        (Json.obj [("a", .str "x"), ("b", .arr [.int 1])]).canonical ∧
      parse? (Json.obj [("b", .arr [.int 1]), ("a", .str "x")]).canonical =
        some (.obj [("a", .str "x"), ("b", .arr [.int 1])]) ∧
      ∃ c c' c'', ConfigDocument.ofLayers ["a: x"] = .ok c ∧
        ConfigDocument.ofLayers ["a: y", "a: x"] = .ok c' ∧
        ConfigDocument.ofLayers ["a: y"] = .ok c'' ∧ c.hash = c'.hash ∧ c.hash ≠ c''.hash := by
  obtain ⟨htext, -, hread, hhash⟩ := canonical_normal_form
  have hleft : (Json.obj [("b", .arr [.int 1]), ("a", .str "x")]).IsDocument Binary64.ReadsBack :=
    .obj (by simpa using ⟨.arr (by simpa using .int (by decide) (by decide)), .str _⟩) (by simp)
  have hright : (Json.obj [("a", .str "x"), ("b", .arr [.int 1])]).IsDocument Binary64.ReadsBack :=
    .obj (by simpa using ⟨.str _, .arr (by simpa using .int (by decide) (by decide))⟩) (by simp)
  have halike : Alike (.obj [("b", .arr [.int 1]), ("a", .str "x")])
      (.obj [("a", .str "x"), ("b", .arr [.int 1])]) :=
    (hleft.settled_eq_iff hright).1 rfl
  refine ⟨(htext _ _ hleft hright).2 halike, (hread _ hleft).1, _, _, _, Sample.ofLayers_titled,
    Sample.ofLayers_overridden, Sample.ofLayers_other, ?_, fun hsame => ?_⟩
  · exact (hhash _ _ _ _ Sample.ofLayers_titled Sample.ofLayers_overridden
      (Sample.isDocument_titled _) (Sample.isDocument_titled _) fun hcollide => hcollide.1 rfl).2 rfl
  · have hapart : ¬ Digest.Collide (ConfigDocument.mk (Sample.titled "x")).text
        (ConfigDocument.mk (Sample.titled "y")).text := fun hcollide =>
      absurd hcollide.2 (by decide +kernel)
    have hcontent := (hhash _ _ _ _ Sample.ofLayers_titled Sample.ofLayers_other
      (Sample.isDocument_titled _) (Sample.isDocument_titled _) hapart).1 hsame
    simp [Sample.titled] at hcontent

/-! ## where reading ends -/

/-- Null within so many arrays. -/
def Json.nested : Nat → Json
  | 0 => .null
  | n + 1 => .arr [nested n]

theorem Json.isDocument_nested {ok : Binary64 → Prop} (n : Nat) : (nested n).IsDocument ok := by
  induction n with
  | zero => exact .null
  | succ n ih => exact .arr (by simpa using ih)

/-- One array more than are read, and the text does not give back the
document, although it has no numbers at all. -/
theorem not_parsed_when_nested_deeper :
    (nested 128).IsDocument (fun _ => False) ∧ parse? (nested 128).canonical = none := by
  refine ⟨isDocument_nested 128, ?_⟩
  rw [parse?_canonical (isDocument_nested 128), if_neg (by decide +kernel)]

end TokenSale
