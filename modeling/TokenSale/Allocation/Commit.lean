import TokenSale.Allocation.Walk

/-!
# TokenSale.Allocation.Commit

The committing of a plan, all of it or nothing.
-/

namespace TokenSale

/-- Records the fills of a plan one after the other. -/
def commitFills (tiers : TierLedger) (fills : List Fill) : Except LedgerError TierLedger :=
  fills.foldlM (fun l f => l.commit f.tierIndex f.tokens f.isDiscount) tiers

/-- The tiers and running sums after a plan; nothing changes if one of its
parts is refused. -/
def commitPlan (plan : AllocationPlan) (tiers : TierLedger) (caps : CapTracker) :
    Except AllocationError (TierLedger × CapTracker) :=
  match commitFills tiers plan.fills with
  | .error e => .error (.capacityExceeded e)
  | .ok tiers =>
    match caps.commitSpend plan.investor plan.result.unitsConsumed plan.investorClass
        plan.result.tokensAllocated with
    | .error (.overflow _) => .error (.overflow .capCommit)
    | .error e => .error (.capCommit e)
    | .ok caps => .ok (tiers, caps)

/-- A plan and the state after it, or the reason why there is none. -/
def execute (policy : AllocationPolicy) (input : AllocationInput) (tiers : TierLedger)
    (caps : CapTracker) : Except AllocationError (AllocationPlan × TierLedger × CapTracker) :=
  match allocate policy input tiers caps with
  | .error e => .error e
  | .ok plan => (commitPlan plan tiers caps).map fun state => (plan, state)

end TokenSale
