import TokenSale.Identity
import TokenSale.Quantity

/-!
# TokenSale.Cap.Tracker

What every investor has spent, and how much a non-accredited one still may.

* `headroom` — the units an investor may still spend, as a plan sees it;
* `commitSpend` — adds a purchase to the running sums, or refuses it and
  changes nothing;
* `effectiveLimit` — the limit of the sale, unless an investor has their own.
-/

namespace TokenSale

/-- Why a spend was refused. -/
inductive CapError where
  | capExceeded (investor : InvestorId) (limit invested attempted : Units)
  | overflow (investor : InvestorId)
  deriving DecidableEq

/-- The message of a refusal. -/
def CapError.message : CapError → String
  | capExceeded investor limit invested attempted =>
    s!"investor {investor} cap exceeded: limit {limit}, invested {invested}, " ++
      s!"attempted {attempted}"
  | overflow investor => s!"investor {investor} cumulative counters overflowed"

/-- The running sums of an investor, from their first purchase on. -/
structure CapState where
  /-- As observed at the last purchase. -/
  investorClass : InvestorClass
  investedUnits : Units
  tokensBought : Tokens
  purchaseCount : Nat
  deriving DecidableEq

/-- Limits and running sums. -/
structure CapTracker where
  nonAccreditedLimit : Units
  overrides : Directory InvestorId Units
  investors : Directory InvestorId CapState

namespace CapTracker

/-- A tracker with a limit and without investors. -/
def withLimit (limit : Units) : CapTracker := ⟨limit, .empty, .empty⟩

/-! ## limits -/

/-- Sets the limit of the sale. -/
def setLimit (c : CapTracker) (limit : Units) : CapTracker := { c with nonAccreditedLimit := limit }

/-- Gives an investor a limit of their own. -/
def setOverride (c : CapTracker) (investor : InvestorId) (limit : Units) : CapTracker :=
  { c with overrides := c.overrides.insert investor limit }

/-- Takes an investor's own limit away. -/
def clearOverride (c : CapTracker) (investor : InvestorId) : CapTracker :=
  { c with overrides := c.overrides.erase investor }

/-- An investor's own limit, or else the limit of the sale. -/
def effectiveLimit (c : CapTracker) (investor : InvestorId) : Units :=
  (c.overrides.get? investor).getD c.nonAccreditedLimit

/-! ## reading -/

/-- The running sums of an investor. -/
def state? (c : CapTracker) (investor : InvestorId) : Option CapState := c.investors.get? investor

/-- Whether the investor has purchased before. -/
def hasInvested (c : CapTracker) (investor : InvestorId) : Bool := c.investors.contains investor

/-- The units that an investor has spent. -/
def currentSpend (c : CapTracker) (investor : InvestorId) : Units :=
  ((c.state? investor).map CapState.investedUnits).getD .zero

/-- The tokens that an investor has bought. -/
def tokensBought (c : CapTracker) (investor : InvestorId) : Tokens :=
  ((c.state? investor).map CapState.tokensBought).getD .zero

/-- How often an investor has purchased. -/
def purchaseCount (c : CapTracker) (investor : InvestorId) : Nat :=
  ((c.state? investor).map CapState.purchaseCount).getD 0

/-- The units that the investor may still spend; nothing means without bound.
Somebody at or over their limit is refused instead of given zero. -/
def headroom (c : CapTracker) (investor : InvestorId) :
    InvestorClass → Except CapError (Option Units)
  | .accredited => .ok none
  | .nonAccredited =>
    let limit := c.effectiveLimit investor
    let invested := c.currentSpend investor
    match limit.sub? invested with
    | some room =>
      if room.isZero then .error (.capExceeded investor limit invested .zero) else .ok (some room)
    | none => .error (.capExceeded investor limit invested .zero)

/-! ## writing -/

/-- Purchases are counted up to this number. -/
abbrev countLimit : Nat := Nat.pow 2 64 - 1

/-- Adds a purchase to the running sums of an investor.  A non-accredited
investor must not end above their limit. -/
def commitSpend (c : CapTracker) (investor : InvestorId) (units : Units)
    (investorClass : InvestorClass) (tokens : Tokens) : Except CapError CapTracker :=
  let invested := c.currentSpend investor
  let limit := c.effectiveLimit investor
  match invested.add? units with
  | none => .error (.overflow investor)
  | some total =>
    if investorClass = .nonAccredited ∧ limit < total then
      .error (.capExceeded investor limit invested units)
    else
      match (c.tokensBought investor).add? tokens with
      | none => .error (.overflow investor)
      | some bought =>
        let state : CapState := ⟨investorClass, total, bought,
          min (c.purchaseCount investor + 1) countLimit⟩
        .ok { c with investors := c.investors.insert investor state }

end CapTracker

end TokenSale
