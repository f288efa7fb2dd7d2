import TokenSale.Tier.Basic

/-!
# TokenSale.Tier.Ledger

The tiers of a sale in the order in which they are sold, and the only place
where the sums of their sales change.

* `ofSpecs` — opens a ledger; refuses a set of tiers that is empty, holds a
  tier that makes no sense, or offers more tokens than an amount can count;
* `commit` — records a sale, or refuses it and changes nothing;
* `currentTier?` — the first tier of which something is left.
-/

namespace TokenSale

/-- What is wrong with the shape of a tier. -/
inductive TierFault where
  | zeroPrice
  | discountAboveRegular
  | incomparablePrices
  | noCapacity
  | discountAboveCapacity
  | capacitiesOverflow
  deriving DecidableEq

/-- The reason in a message. -/
def TierFault.message : TierFault → String
  | zeroPrice => "prices must be non-zero"
  | discountAboveRegular => "discount_price exceeds regular_price"
  | incomparablePrices => "price comparison overflowed"
  | noCapacity => "total_capacity must be > 0"
  | discountAboveCapacity => "discount_capacity exceeds total_capacity"
  | capacitiesOverflow => "cumulative capacity overflows u128"

/-- Why the ledger refused. -/
inductive LedgerError where
  | emptyTierSet
  | invalidTier (index : Nat) (fault : TierFault)
  | unknownTier (index : Nat)
  | capacityExceeded (index : Nat) (requested remaining : Tokens)
  deriving DecidableEq

/-- The message of a refusal. -/
def LedgerError.message : LedgerError → String
  | emptyTierSet => "tier set must contain at least one tier"
  | invalidTier index fault => s!"tier {index} invalid: {fault.message}"
  | unknownTier index => s!"unknown tier index {index}"
  | capacityExceeded index requested remaining =>
    s!"tier {index} capacity exceeded: requested {requested}, remaining {remaining}"

/-- What is wrong with a tier by itself, if anything. -/
def TierSpec.fault? (s : TierSpec) : Option TierFault :=
  if !s.regularPrice.isValid || !s.discountPrice.isValid then some .zeroPrice
  else match s.discountPrice.compare? s.regularPrice with
    | some .gt => some .discountAboveRegular
    | none => some .incomparablePrices
    | some _ =>
      if s.totalCapacity.isZero then some .noCapacity
      else if s.totalCapacity < s.discountCapacity then some .discountAboveCapacity
      else none

/-- The tiers in the order in which they are sold. -/
structure TierLedger where
  tiers : List Tier
  deriving DecidableEq

namespace TierLedger

/-- Checks tiers from `index` on, with `capacity` tokens offered by those before. -/
def checkSpecs (index : Nat) (capacity : Tokens) : List TierSpec → Except LedgerError Unit
  | [] => .ok ()
  | s :: rest =>
    match s.fault? with
    | some fault => .error (.invalidTier index fault)
    | none =>
      match capacity.add? s.totalCapacity with
      | none => .error (.invalidTier index .capacitiesOverflow)
      | some capacity => checkSpecs (index + 1) capacity rest

/-- A ledger of which nothing was sold. -/
def ofSpecs (specs : List TierSpec) : Except LedgerError TierLedger :=
  if specs.isEmpty then .error .emptyTierSet
  else (checkSpecs 0 .zero specs).map fun _ => ⟨specs.map .fresh⟩

/-! ## reading -/

/-- How many tiers there are. -/
def size (l : TierLedger) : Nat := l.tiers.length

/-- The configured shapes. -/
def specs (l : TierLedger) : List TierSpec := l.tiers.map Tier.spec

/-- The tier at an index. -/
def tier (l : TierLedger) (index : Nat) : Except LedgerError Tier :=
  match l.tiers[index]? with
  | some t => .ok t
  | none => .error (.unknownTier index)

/-- The first tier of which something is left. -/
def currentTier? (l : TierLedger) : Option Nat := l.tiers.findIdx? fun t => !t.isExhausted

/-- Nothing is left of any tier. -/
def isSoldOut (l : TierLedger) : Bool := l.currentTier?.isNone

/-- The sum of amounts, or the largest amount if it does not fit. -/
def sum (amounts : List Tokens) : Tokens := amounts.foldl .addClamped .zero

/-- All tokens sold. -/
def totalSold (l : TierLedger) : Tokens := sum (l.tiers.map Tier.totalSold)

/-- All tokens offered. -/
def totalCapacity (l : TierLedger) : Tokens := sum (l.tiers.map fun t => t.spec.totalCapacity)

/-- All tokens left. -/
def totalRemaining (l : TierLedger) : Tokens := sum (l.tiers.map Tier.remaining)

/-! ## writing -/

/-- Records `tokens` sold from one band of the tier at `index`. -/
def commit (l : TierLedger) (index : Nat) (tokens : Tokens) (discount : Bool) :
    Except LedgerError TierLedger :=
  match l.tiers[index]? with
  | none => .error (.unknownTier index)
  | some t =>
    match t.sell? tokens discount with
    | none => .error (.capacityExceeded index tokens (t.remainingIn discount))
    | some t' => .ok ⟨l.tiers.set index t'⟩

end TierLedger

end TokenSale
