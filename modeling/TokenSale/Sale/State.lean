import TokenSale.Sale.Config

/-!
# TokenSale.Sale.State

Where a sale stands.  The state is not kept anywhere: it follows from the
parameters, the clock and whether anything is left to sell.
-/

namespace TokenSale

/-- Where a sale stands. -/
inductive SaleState where
  | unconfigured
  | scheduled
  | opened
  | closed
  deriving DecidableEq

namespace SaleState

/-- The name of a state in messages. -/
def label : SaleState → String
  | unconfigured => "UNCONFIGURED"
  | scheduled => "SCHEDULED"
  | opened => "OPEN"
  | closed => "CLOSED"

instance : ToString SaleState := ⟨label⟩

/-- Parameters may change only before the sale opens. -/
def acceptsConfigChanges : SaleState → Bool
  | unconfigured | scheduled => true
  | opened | closed => false

/-- How far the sale has come. -/
def rank : SaleState → Nat
  | unconfigured => 0
  | scheduled => 1
  | opened => 2
  | closed => 3

/-- A sale is open from its start to just before its end, as long as
something is left. -/
def derive (config : Option SaleConfig) (now : Instant) (soldOut : Bool) : SaleState :=
  match config with
  | none => unconfigured
  | some c =>
    if now < c.startTime then scheduled
    else if c.endTime ≤ now ∨ soldOut then closed
    else opened

end SaleState

end TokenSale
