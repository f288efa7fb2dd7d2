import TokenSale.Command.Folder
import TokenSale.Command.Invocation
import TokenSale.Setup.Layers
import TokenSale.Simulation.Run

/-!
# TokenSale.Command.Execute

What a command prints, how it ends, and what it leaves in its files.

* `Command.execute` — one invocation;
* `Command.run` — a whole command line.
-/

namespace TokenSale

/-- Why a command fails. -/
inductive CommandError where
  /-- A layer of the configuration cannot be read. -/
  | unreadableConfig (path : String)
  | layers (cause : LayerError)
  | unusedKeys (cause : UnusedKeys)
  | setup (cause : SetupError)
  /-- The script cannot be read. -/
  | unreadableScript (path : String)
  /-- The file holds no script. -/
  | badScript (path : String)
  | simulation (cause : SimulationError)
  | journal (cause : JournalError)
  | brokenJournal (path : String) (line : Nat) (fault : ChainFault)

/-- The message of an error, without the causes below it. -/
def CommandError.message : CommandError → String
  | unreadableConfig path => s!"read config {Text.quoted path}"
  | layers cause => cause.message
  | unusedKeys cause => cause.message
  | setup cause => cause.message
  | unreadableScript path => s!"read failed: {path}"
  | badScript path => s!"{path} must contain valid JSON"
  | simulation cause => cause.message
  | journal cause => cause.message
  | brokenJournal path line fault =>
    s!"JOURNAL_BROKEN: {path} at line {line}: {fault.message}"

/-- How a command ended. -/
structure Output where
  exitCode : Nat
  stdout : String
  error : Option String
  deriving DecidableEq

namespace Command

/-- The text of lines. -/
def unlines (lines : List String) : String := String.join (lines.map fun l => l ++ "\n")

/-- The configuration of layers in files; all of them are read before the first
is looked into. -/
def readConfig (f : Folder) (paths : List String) : Except CommandError ConfigDocument := do
  let layers ← paths.mapM fun path =>
    match f.read? path with
    | some text => .ok text
    | none => .error (.unreadableConfig path)
  (ConfigDocument.ofLayers layers).mapError .layers

/-- The script in a text; a byte order mark in front and blanks around it do
not count. -/
def scriptOfText? (text : String) : Option Script :=
  let cs := match text.toList with
    | '\uFEFF' :: cs => cs
    | cs => cs
  (Json.ofChars? (Text.trim cs)).bind fun v => (Script.decode v).toOption

/-- The script in a file. -/
def readScript (f : Folder) (path : String) : Except CommandError Script :=
  match f.read? path with
  | none => .error (.unreadableScript path)
  | some text =>
    match scriptOfText? text with
    | some script => .ok script
    | none => .error (.badScript path)

/-! ## the commands -/

/-- The lines of `config-hash`. -/
def configHash (f : Folder) (config : List String) : Except CommandError (List String) := do
  let document ← readConfig f config
  return [s!"config_hash={document.hash}", document.text]

/-- The lines of `config-check`. -/
def configCheck (f : Folder) (surface : Surface) (strict : Bool) (config : List String) :
    Except CommandError (List String) := do
  let document ← readConfig f config
  let u ← if strict then (surface.check document.content).mapError .unusedKeys
    else pure (surface.report document.content)
  return [s!"surface={u.surface.label}", s!"unused_keys={u.unused.length}"] ++
    u.unused.map fun path => s!"unused={path}"

/-- The journal at a path.  Under the path of a folder that is not there no
file can be made, which shows with the first entry only. -/
def openJournal (f : Folder) (path : String) (saleId : Uuid) : Except CommandError Sink :=
  let opened := match f.look path with
    | .file content => Sink.openJournal path saleId (some content)
    | .vacant => Sink.openJournal path saleId none
    | .missingFolder =>
      let cause := s!"open journal {Text.quoted path}: Is a directory (os error 21)"
      Sink.openJournal path saleId none (.closed cause)
    | .obstacle => .error (.unreadable path)
  opened.mapError fun cause => .simulation (.journal path cause)

/-- The folder with the journal that a simulation wrote. -/
def keepJournal (f : Folder) (journal : Option String) (w : World) : Folder :=
  match journal, w.journalText? with
  | some path, some text => if text = "" then f else f.write path text
  | _, _ => f

/-- Plays the script of `simulate`. -/
def simulate (f : Folder) (config : List String) (purchases : String) (journal : Option String)
    (finalize : Bool) :
    Except CommandError (ConfigDocument × Except SimulationError SimulationReport × World) := do
  let document ← readConfig f config
  let setup ← (SaleSetup.ofConfig document.content).mapError .setup
  let script ← readScript f purchases
  let sink ← journal.mapM fun path => openJournal f path setup.config.saleId
  return (document,
    (Simulation.run setup script finalize).run (Simulation.stage setup script sink))

/-- The lines of a report under the hash of the configuration, or its document. -/
def reportLines (document : ConfigDocument) (r : SimulationReport) (json : Bool) : List String :=
  if json then [r.encode.pretty] else s!"config_hash={document.hash}" :: r.lines

/-- The lines of `audit verify`, and whether the chain is broken. -/
def auditVerify (f : Folder) (path : String) :
    Except CommandError (List String × Option CommandError) := do
  match f.read? path with
  | none => .error (.journal (.unreadable path))
  | some text =>
    match ← (JournalText.check text).mapError fun e => .journal (.badLine e) with
    | .intact entries => return ([s!"journal_intact=true entries={entries}"], none)
    | .broken line fault =>
      return ([s!"journal_intact=false line={line} reason={fault.message}"],
        some (.brokenJournal path line fault))

/-! ## running -/

/-- A command that fails without a word. -/
def fail (e : CommandError) : Output := ⟨1, "", some e.message⟩

/-- A command that prints lines, and fails afterwards or not. -/
def print (lines : List String) (e : Option CommandError) : Output :=
  ⟨if e.isSome then 1 else 0, unlines lines, e.map CommandError.message⟩

/-- The output of a command that only looks at files. -/
def outputOf (r : Except CommandError (List String)) : Output :=
  match r with
  | .ok lines => print lines none
  | .error e => fail e

/-- Runs one invocation. -/
def execute (f : Folder) : Invocation → Output × Folder
  | .configHash config => (outputOf (configHash f config), f)
  | .configCheck surface strict config => (outputOf (configCheck f surface strict config), f)
  | .auditVerify path =>
    match auditVerify f path with
    | .ok (lines, e) => (print lines e, f)
    | .error e => (fail e, f)
  | .simulate config purchases journal finalize json =>
    match simulate f config purchases journal finalize with
    | .error e => (fail e, f)
    | .ok (document, report, w) =>
      (outputOf ((report.mapError .simulation).map fun r => reportLines document r json),
        keepJournal f journal w)

/-- Runs a command line; one that makes no sense prints nothing. -/
def run (f : Folder) (args : List String) : Output × Folder :=
  match Invocation.ofArguments args with
  | .ok invocation => execute f invocation
  | .error (.help page) => (⟨0, page.text, none⟩, f)
  | .error .misuse => (⟨2, "", none⟩, f)

end Command

end TokenSale
