import TokenSale.Memory.World
import TokenSale.Setup.SaleSetup
import TokenSale.Simulation.Report
import TokenSale.Simulation.Script

/-!
# TokenSale.Simulation.Run

A sale played from a script.  Every purchase moves the clock to its time, and
every rate of the setup counts as observed at that time, so that only the
rules of the sale decide what becomes of the purchase.

* `stage` — the sale before the script begins;
* `run` — the script from start to end.
-/

namespace TokenSale

/-- Why a simulation ends without a report. -/
inductive SimulationError where
  /-- The journal at a path cannot be resumed. -/
  | journal (path : String) (cause : JournalError)
  | configure (cause : SaleError)
  | finalize (cause : SaleError)
  deriving DecidableEq

/-- What failed; the cause is told apart from it. -/
def SimulationError.message : SimulationError → String
  | journal path _ => s!"open journal failed: {path}"
  | configure _ => "configure sale"
  | finalize _ => "finalize"

namespace Simulation

/-- A sale without parameters at the time it would start, those that the
script names on its allow-list. -/
def stage (setup : SaleSetup) (script : Script) (journal : Option Sink) : World :=
  { World.start setup.config.startTime (.emptyLog :: journal.toList) with
    allowList := script.investors.foldl (fun l i => l.allow i.id i.investorClass) .empty }

/-- Makes one purchase at its time. -/
def play (quotes : Directory Currency Quote) (index : Nat) (p : ScriptedPurchase) :
    StateM World Outcome := do
  modify fun w => (w.setTime p.time).stampQuotes quotes
  match ← World.run (Sale.purchase p.request) with
  | .ok receipt => return .committed index receipt
  | .error cause => return .rejected index cause

/-- Makes the purchases from number `index` on. -/
def playAll (quotes : Directory Currency Quote) (index : Nat) :
    List ScriptedPurchase → StateM World (List Outcome)
  | [] => return []
  | p :: rest => do
    let outcome ← play quotes index p
    return outcome :: (← playAll quotes (index + 1) rest)

/-- Ends the sale at its time. -/
def finish (setup : SaleSetup) : StateM World (Except SaleError Tokens) := do
  modify fun w => w.setTime setup.config.endTime
  World.run Sale.finalize

/-- The report on a world. -/
def report (outcomes : List Outcome) (unsold : Option Tokens) (w : World) : SimulationReport :=
  ⟨outcomes, w.stats, unsold, w.journalEntries?⟩

/-- Plays a script on its stage. -/
def run (setup : SaleSetup) (script : Script) (finalize : Bool) :
    StateM World (Except SimulationError SimulationReport) := do
  match ← World.run (Sale.configure setup.config setup.tiers) with
  | .error cause => return .error (.configure cause)
  | .ok () =>
    let outcomes ← playAll setup.rates 0 script.purchases
    if finalize then
      match ← finish setup with
      | .error cause => return .error (.finalize cause)
      | .ok unsold => return .ok (report outcomes (some unsold) (← get))
    else return .ok (report outcomes none (← get))

end Simulation

end TokenSale
