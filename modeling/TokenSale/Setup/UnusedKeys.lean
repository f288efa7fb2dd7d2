import TokenSale.Directory
import TokenSale.Json.Pointer
import TokenSale.Text.Quoted

/-!
# TokenSale.Setup.UnusedKeys

What a program does not read of a configuration.  A leaf that nothing reads
is most likely misspelt.

* `Surface.report` — the leaves that a surface does not read;
* `Surface.check` — the same, where any such leaf is an error.
-/

namespace TokenSale

/-- Which program reads a configuration. -/
inductive Surface where
  | simulate
  | daemon
  deriving DecidableEq

/-- The leaves that are not read. -/
structure UnusedKeys where
  surface : Surface
  /-- The paths that are read with everything below them. -/
  consumed : List String
  unused : List String
  deriving DecidableEq

/-- Whether everything is read. -/
def UnusedKeys.isClean (u : UnusedKeys) : Bool := u.unused.isEmpty

namespace Surface

/-- The name of a surface in reports. -/
def label : Surface → String
  | simulate => "SIMULATE"
  | daemon => "DAEMON"

/-- The name by which a surface is chosen. -/
def name : Surface → String
  | simulate => "simulate"
  | daemon => "daemon"

/-- The surface of a name. -/
def ofName? (s : String) : Option Surface := [simulate, daemon].find? fun c => c.name = s

/-- The paths that a surface reads, in order. -/
def consumed : Surface → List String
  | simulate => ["/rates", "/sale", "/tiers"]
  | daemon => ["/daemon/admin_token_env", "/daemon/journal_path", "/rates", "/sale", "/tiers"]

/-- Whether a path covers a leaf: the same path, or one that goes on below it. -/
def covers (path leaf : String) : Bool :=
  leaf == path || (path ++ "/").toList.isPrefixOf leaf.toList

/-- The leaves that a surface does not read, in order. -/
def report (s : Surface) (config : Json) : UnusedKeys where
  surface := s
  consumed := s.consumed
  unused :=
    let leaves := config.leaves.filter fun leaf => !s.consumed.any fun path => covers path leaf
    (Directory.ofList (leaves.map fun leaf => (leaf, ()))).keys

end Surface

/-- A report as a document. -/
def UnusedKeys.encode (u : UnusedKeys) : Json :=
  .obj [("surface", .str u.surface.label), ("consumed_prefixes", .arr (u.consumed.map .str)),
    ("unused_leaf_pointers", .arr (u.unused.map .str))]

/-- The message about leaves that are not read; it names the first twelve. -/
def UnusedKeys.message (u : UnusedKeys) : String :=
  s!"CONFIG_UNUSED_KEYS (surface={u.surface.label}): {u.unused.length} unused leaf key(s): " ++
    Text.quotedList (u.unused.take 12)

/-- The report, or the same as an error if there are leaves that are not read. -/
def Surface.check (s : Surface) (config : Json) : Except UnusedKeys UnusedKeys :=
  let u := s.report config
  if u.isClean then .ok u else .error u

end TokenSale
