import TokenSale.Proofs.Pointers
import TokenSale.Proofs.Readings
import TokenSale.Server.State
import TokenSale.Setup.UnusedKeys

/-!
# TokenSale.Proofs.UnusedKeys

The report of what is not read of a configuration is exact.  It compares
written paths as texts, which comes to the same as comparing them step by step,
whatever the keys are made of.  And what it lists is not read: a program makes
the same of two configurations that agree at the paths that it reads.

* `Surface.covers_iff` — comparing texts compares steps;
* `Surface.mem_unused_iff` — what is reported;
* `SaleSetup.ofConfig_congr` — what a setup depends on;
* `report_unused` — the report, and that it can be trusted.
-/

namespace TokenSale

open Json

/-! ## the report -/

namespace Surface

/-- A written path covers another just if its steps come first there. -/
theorem covers_iff {path leaf : List String} :
    covers (pathText path) (pathText leaf) = true ↔ path <+: leaf := by
  have hslash : "/".toList = ['/'] := rfl
  rw [covers, Bool.or_eq_true, beq_iff_eq, List.isPrefixOf_iff_prefix, String.toList_append, hslash]
  constructor
  · rintro (h | ⟨rest, hrest⟩)
    · exact (pathText_injective h) ▸ List.prefix_rfl
    · have htext : pathText leaf = pathText path ++ "/" ++ String.ofList rest := by
        apply String.toList_inj.1
        simp [← hrest, hslash]
      have hsteps := pathOfText?_append (pathText path) (String.ofList rest)
      rw [← htext, pathOfText?_pathText, pathOfText?_pathText, Option.bind_some, eq_comm,
        Option.map_eq_some_iff] at hsteps
      obtain ⟨more, -, hmore⟩ := hsteps
      exact ⟨more, hmore⟩
  · rintro ⟨more, rfl⟩
    cases more with
    | nil => exact .inl (by rw [List.append_nil])
    | cons s more =>
        refine .inr ⟨escapeStep s.toList ++ more.flatMap fun s => '/' :: escapeStep s.toList, ?_⟩
        simp [pathText]

/-- A surface reads all that stands at a path that it consumes, or below it. -/
def Reads (s : Surface) (path : List String) : Prop :=
  ∃ steps, pathText steps ∈ s.consumed ∧ steps <+: path

/-- Every pointer that is consumed is a written path. -/
theorem eq_pathText_of_mem_consumed {s : Surface} {text : String} (h : text ∈ s.consumed) :
    ∃ steps, text = pathText steps := by
  have hall : ∀ text ∈ s.consumed, text = pathText ((pathOfText? text).getD []) := by
    cases s <;> decide +kernel
  exact ⟨_, hall text h⟩

/-- A path is covered exactly if a reader looks at it or at something above it. -/
theorem any_covers_iff {s : Surface} {path : List String} :
    (s.consumed.any fun text => covers text (pathText path)) = true ↔ s.Reads path := by
  rw [List.any_eq_true]
  constructor
  · rintro ⟨text, htext, hcovers⟩
    obtain ⟨steps, rfl⟩ := eq_pathText_of_mem_consumed htext
    exact ⟨steps, htext, covers_iff.1 hcovers⟩
  · rintro ⟨steps, hsteps, hprefix⟩
    exact ⟨pathText steps, hsteps, covers_iff.2 hprefix⟩

/-- **Just the leaves that are not read are reported.** -/
theorem mem_unused_iff {s : Surface} {config : Json} (hwhole : ¬ config.IsLeaf) {text : String} :
    text ∈ (s.report config).unused ↔
      ∃ path leaf, config.LeafAt path leaf ∧ ¬ s.Reads path ∧ text = pathText path := by
  simp only [report, Directory.mem_keys_ofList, List.map_map, Function.comp_def, List.map_id',
    List.mem_filter, mem_leaves_iff hwhole, Bool.not_eq_true', Bool.eq_false_iff]
  constructor
  · rintro ⟨⟨path, leaf, hleaf, rfl⟩, hnot⟩
    exact ⟨path, leaf, hleaf, mt any_covers_iff.2 hnot, rfl⟩
  · rintro ⟨path, leaf, hleaf, hnot, rfl⟩
    exact ⟨⟨path, leaf, hleaf, rfl⟩, mt any_covers_iff.1 hnot⟩

end Surface

/-! ## what a setup depends on -/

variable {config config' : Json}

/-- What stands below a path depends on what stands there. -/
theorem Setting.ofPath_below {path : String} (h : config.pointer? path = config'.pointer? path)
    (key : String) :
    Setting.ofPath config (path ++ "/" ++ key) = Setting.ofPath config' (path ++ "/" ++ key) := by
  rw [ofPath, ofPath, pointer?_append, pointer?_append, h]

namespace SaleSetup

/-- The parameters are read from what is below `/sale`. -/
theorem readConfig_congr (h : config.pointer? "/sale" = config'.pointer? "/sale") :
    readConfig config = readConfig config' := by
  have hsetting (key : String) :
      Setting.ofPath config s!"/sale/{key}" = Setting.ofPath config' s!"/sale/{key}" :=
    Setting.ofPath_below h key
  simp only [readConfig, hsetting]

/-- The tiers are read from what is below `/tiers`. -/
theorem readTiers_congr (h : config.pointer? "/tiers" = config'.pointer? "/tiers") :
    readTiers config = readTiers config' := by
  rw [readTiers, readTiers, Setting.ofPath, Setting.ofPath, h]

/-- The rates are read from what is below `/rates`. -/
theorem readRates_congr (h : config.pointer? "/rates" = config'.pointer? "/rates") :
    readRates config = readRates config' := by
  rw [readRates, readRates, Setting.ofPath, Setting.ofPath, h]

/-- What is read and checked on the way to a setup. -/
theorem ofConfig_ok_iff {setup : SaleSetup} : ofConfig config = .ok setup ↔
    readConfig config = .ok setup.config ∧ setup.config.fault? = none ∧
      readTiers config = .ok setup.tiers ∧ (∃ tiers, TierLedger.ofSpecs setup.tiers = .ok tiers) ∧
      readRates config = .ok setup.rates := by
  have hvalidate (c : SaleConfig) (u : Unit) :
      c.validate.mapError SetupError.parameters = .ok u ↔ c.fault? = none := by
    rw [SaleConfig.validate]
    cases c.fault? <;> simp [Except.mapError]
  have hopens (specs : List TierSpec) (tiers : TierLedger) :
      (TierLedger.ofSpecs specs).mapError SetupError.tiers = .ok tiers ↔
        TierLedger.ofSpecs specs = .ok tiers := by
    cases TierLedger.ofSpecs specs <;> simp [Except.mapError]
  simp only [ofConfig, bind_eq_ok_iff, hvalidate, hopens]
  constructor
  · rintro ⟨parameters, hparameters, -, hfault, specs, hspecs, tiers, htiers, rates, hrates, hsetup⟩
    cases hsetup
    exact ⟨hparameters, hfault, hspecs, ⟨tiers, htiers⟩, hrates⟩
  · rintro ⟨hparameters, hfault, hspecs, ⟨tiers, htiers⟩, hrates⟩
    exact ⟨_, hparameters, (), hfault, _, hspecs, tiers, htiers, _, hrates, rfl⟩

/-- **A setup depends on what stands at three paths only**, and so does the error
if there is none. -/
theorem ofConfig_congr (h : ∀ path ∈ Surface.simulate.consumed,
    config.pointer? path = config'.pointer? path) : ofConfig config = ofConfig config' := by
  rw [ofConfig, ofConfig, readConfig_congr (h _ (by decide)), readTiers_congr (h _ (by decide)),
    readRates_congr (h _ (by decide))]

end SaleSetup

/-! ## the report can be trusted -/

namespace Surface

/-- Two configurations are the same at the paths that a surface consumes. -/
def Agree (s : Surface) (config config' : Json) : Prop :=
  ∀ path ∈ s.consumed, config.pointer? path = config'.pointer? path

/-- **Configurations that agree where a setup looks give the same setup.** -/
theorem Agree.ofConfig_eq {s : Surface} (h : s.Agree config config') :
    SaleSetup.ofConfig config = SaleSetup.ofConfig config' := by
  have hall : ∀ path ∈ simulate.consumed, path ∈ s.consumed := by
    cases s <;> decide
  exact SaleSetup.ofConfig_congr fun path hpath => h path (hall path hpath)

theorem Agree.variableName?_eq (h : daemon.Agree config config') :
    AdminToken.variableName? config = AdminToken.variableName? config' := by
  rw [AdminToken.variableName?, AdminToken.variableName?, h _ (by decide)]

theorem Agree.journalPath?_eq (h : daemon.Agree config config') :
    Server.journalPath? config = Server.journalPath? config' := by
  rw [Server.journalPath?, Server.journalPath?, h _ (by decide)]

/-- What a report says about a configuration. -/
structure Reports (s : Surface) (config : Json) : Prop where
  /-- It is in order, and nothing stands in it twice. -/
  sorted : (s.report config).unused.Pairwise fun a b => OrderedKey.before a b = true
  /-- It lists the leaves that the surface does not read, and nothing else. -/
  unused_iff : ∀ text, text ∈ (s.report config).unused ↔
    ∃ path leaf, config.LeafAt path leaf ∧ ¬ s.Reads path ∧ text = pathText path
  /-- What goes by a written path is found there, and nothing else goes by it. -/
  resolves : ∀ path leaf, config.LeafAt path leaf →
    config.pointer? (pathText path) = some leaf
  distinct : ∀ path path' leaf leaf', config.LeafAt path leaf → config.LeafAt path' leaf' →
    pathText path = pathText path' → path = path' ∧ leaf = leaf'
  nodup : config.leaves.Nodup
  /-- Nothing comes of what is not read. -/
  setup : ∀ config', s.Agree config config' →
    SaleSetup.ofConfig config = SaleSetup.ofConfig config'
  server : s = .daemon → ∀ config', s.Agree config config' →
    AdminToken.variableName? config = AdminToken.variableName? config' ∧
      Server.journalPath? config = Server.journalPath? config'

/-- **The report is exact, and what it lists is not read**, for every
configuration that is an object. -/
theorem reports_unused {members : List (String × Json)} (s : Surface)
    (h : (Json.obj members).IsSettled) : s.Reports (.obj members) where
  sorted := List.pairwise_map.2 (Directory.ofList _).ordered
  unused_iff _ := mem_unused_iff id
  resolves _ _ hleaf := hleaf.pointer?_pathText h
  distinct path path' leaf leaf' hleaf hleaf' hsame := by
    have hpath := pathText_injective hsame
    subst hpath
    exact ⟨rfl, hleaf.unique h hleaf'⟩
  nodup := nodup_leaves h id
  setup _ hagree := hagree.ofConfig_eq
  server hs config' hagree := by
    subst hs
    exact ⟨hagree.variableName?_eq, hagree.journalPath?_eq⟩

end Surface

/-- Keys that look like parts of the paths that are read. -/
def Sample.lookalikes : List (String × Json) :=
  [("daemon", .obj [("journal_path", .str "journal"), ("journal_path/", .null)]),
    ("sale", .obj [("~", .bool true)]), ("sale/x", .arr [.null]), ("sales", .null),
    ("tiers~", .null)]

/-- None of them is read. -/
theorem reports_unused_lookalikes :
    (Surface.daemon.report (.obj Sample.lookalikes)).unused =
        ["/daemon/journal_path~1", "/sales", "/sale~1x/0", "/tiers~0"] ∧
      Surface.daemon.Reports (.obj Sample.lookalikes) := by
  have hsettled : (Json.obj Sample.lookalikes).settled = .obj Sample.lookalikes := by rfl
  exact ⟨by decide +kernel, Surface.reports_unused _ (hsettled ▸ isSettled_settled _)⟩

end TokenSale
