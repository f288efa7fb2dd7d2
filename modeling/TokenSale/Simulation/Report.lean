import TokenSale.Sale.Error
import TokenSale.Wire.Sale

/-!
# TokenSale.Simulation.Report

What is told about a simulated sale: the outcome of every purchase, and the
sums at the end.  Outcomes are written as lines for readers and as documents
for programs.
-/

namespace TokenSale

/-- What became of a purchase of a script, by its place there. -/
inductive Outcome where
  | committed (index : Nat) (receipt : PurchaseReceipt)
  | rejected (index : Nat) (cause : SaleError)
  deriving DecidableEq

namespace Outcome

/-- An outcome as one line. -/
def line : Outcome → String
  | committed index r =>
    let sums := r.plan.result
    let settled := if r.settlement = .complete then "true" else "false"
    s!"purchase[{index}] committed purchase_id={r.purchaseId} tokens={sums.tokensAllocated} " ++
      s!"units={sums.unitsConsumed} kept={sums.fundsConsumed} " ++
      s!"refunded={sums.fundsRefunded} settled={settled}"
  | rejected index cause =>
    s!"purchase[{index}] rejected code={cause.code} message=\"{cause.message}\""

/-- An outcome by its name under `outcome`. -/
def encode : Outcome → Json
  | committed index r =>
    let sums := r.plan.result
    .obj [("outcome", .str "committed"), ("index", .nat index),
      ("purchase_id", r.purchaseId.encode), ("tokens", sums.tokensAllocated.encode),
      ("units", sums.unitsConsumed.encode), ("kept", sums.fundsConsumed.encode),
      ("refunded", sums.fundsRefunded.encode), ("settlement", r.settlement.encode)]
  | rejected index cause =>
    .obj [("outcome", .str "rejected"), ("index", .nat index), ("code", .str cause.code),
      ("message", .str cause.message)]

end Outcome

/-- What is told about a simulated sale. -/
structure SimulationReport where
  outcomes : List Outcome
  stats : SaleStats
  /-- What went to the treasury, if the sale was finalized. -/
  finalizedUnsold : Option Tokens
  /-- How many entries the journal holds, if one is kept. -/
  journalEntries : Option Nat

namespace SimulationReport

/-- A report as lines. -/
def lines (r : SimulationReport) : List String :=
  r.outcomes.map Outcome.line ++
    [s!"tokens_sold={r.stats.tokensSold}", s!"tokens_remaining={r.stats.tokensRemaining}",
      s!"units_raised={r.stats.unitsRaised}", s!"investor_count={r.stats.investorCount}",
      s!"state={r.stats.state}"] ++
    (r.finalizedUnsold.map fun t => s!"finalized=true unsold_to_treasury={t}").toList ++
    (r.journalEntries.map fun n => s!"journal_entries={n}").toList

/-- A report. -/
def encode (r : SimulationReport) : Json :=
  .obj [("outcomes", .arr (r.outcomes.map Outcome.encode)), ("stats", r.stats.encode),
    ("finalized_unsold", .ofOption Quantity.encode r.finalizedUnsold),
    ("journal_entries", .ofOption .nat r.journalEntries)]

end SimulationReport

end TokenSale
