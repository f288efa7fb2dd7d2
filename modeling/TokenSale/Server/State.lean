import TokenSale.Memory.World
import TokenSale.Server.Notice
import TokenSale.Setup.Layers
import TokenSale.Setup.SaleSetup

/-!
# TokenSale.Server.State

A running server: a sale with its services in memory, the token that guards
its administration, and all the news so far.

* `boot` — the server of a configuration;
* `runSale` — runs an operation of the sale; what it reports becomes news.
-/

namespace TokenSale

/-- A running server. -/
structure Server where
  world : World
  configHash : String
  /-- Without a token nobody can administer the sale. -/
  adminToken : Option AdminToken
  /-- The news since the server started, the oldest first. -/
  notices : List Notice

/-- Why a server does not start. -/
inductive BootError where
  | setup (cause : SetupError)
  /-- The journal at a path cannot be resumed. -/
  | journal (path : String) (cause : JournalError)
  | configure (cause : SaleError)

/-- What failed; the cause of a refused journal or configuration is told apart
from it. -/
def BootError.message : BootError → String
  | setup cause => cause.message
  | journal path _ => s!"open journal failed: {path}"
  | configure _ => "configure sale"

namespace Server

/-- The name of the server. -/
def name : String := "sto-daemon"

/-- The version of the server. -/
def version : String := "0.0.1"

/-- Where a configuration wants the journal, if it wants one. -/
def journalPath? (config : Json) : Option String :=
  (((config.pointer? "/daemon/journal_path").bind Json.string?).map Text.trimmed).filter
    fun path => path != ""

/-- The journal that a configuration wants, with what the files hold already and
what becomes of appends to them. -/
def openJournal (config : Json) (saleId : Uuid) (files : String → Option String)
    (media : String → Medium) : Except BootError (Option Sink) :=
  match journalPath? config with
  | none => .ok none
  | some path =>
    match Sink.openJournal path saleId (files path) (media path) with
    | .ok sink => .ok (some sink)
    | .error cause => .error (.journal path cause)

/-- Starts the server of a configuration.  Nobody is on the allow-list yet,
and the rates count as observed now. -/
def boot (document : ConfigDocument) (adminToken : Option AdminToken) (now : Instant)
    (files : String → Option String) (media : String → Medium := fun _ => .sound) :
    Except BootError Server := do
  let setup ← (SaleSetup.ofConfig document.content).mapError .setup
  let journal ← openJournal document.content setup.config.saleId files media
  let world := (World.start now (.emptyLog :: journal.toList)).stampQuotes setup.rates
  let (configured, world) := (World.run (Sale.configure setup.config setup.tiers)).run world
  configured.mapError .configure
  return ⟨world, document.hash, adminToken, []⟩

/-- Tells everybody who watches. -/
def publish (news : List Notice) : StateM Server Unit :=
  modify fun s => { s with notices := s.notices ++ news }

/-- Runs an operation of the sale; the events that it emits become news. -/
def runSale {α : Type} (p : Program α) : StateM Server α := do
  let s ← get
  let (a, world) := (World.run p).run s.world
  set { s with world }
  publish ((world.events.drop s.world.events.length).map .sale)
  return a

/-- Moves the clock. -/
def setTime (s : Server) (now : Instant) : Server := { s with world := s.world.setTime now }

end Server

end TokenSale
