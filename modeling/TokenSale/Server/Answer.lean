import TokenSale.Server.Payload
import TokenSale.Server.Response
import TokenSale.Server.Route
import TokenSale.Server.State

/-!
# TokenSale.Server.Answer

How a server answers.  The body of a request is read before the token is
looked at, so a body that cannot be used is refused first.

* `Server.respond` — the response to a request, and the server behind it.
-/

namespace TokenSale

/-- Why somebody may not administer the sale. -/
inductive AdminFault where
  /-- There is no token, so nobody may. -/
  | disabled
  | unauthorized
  deriving DecidableEq

/-- The refusal of somebody who may not administer the sale. -/
def AdminFault.response : AdminFault → Response
  | disabled => .refusal .forbidden "ADMIN_DISABLED" "no admin token configured" false
  | unauthorized => .refusal .unauthorized "UNAUTHORIZED" "missing or invalid bearer token" false

namespace Server

/-- Whether a request may administer the sale. -/
def checkAdmin (s : Server) (r : Request) : Except AdminFault Unit :=
  match s.adminToken with
  | none => .error .disabled
  | some token => if token.matches? r.credential then .ok () else .error .unauthorized

/-- Serves a request if it may administer the sale. -/
def asAdmin (r : Request) (serve : StateM Server Response) : StateM Server Response := do
  match (← get).checkAdmin r with
  | .error e => return e.response
  | .ok () => serve

/-- Serves a request with the value in its body. -/
def withBody {α : Type} (d : Decoder α) (r : Request) (serve : α → StateM Server Response) :
    StateM Server Response :=
  match r.read d with
  | .error fault => return .bare (.ofBodyFault fault)
  | .ok a => serve a

/-- The response that the result of an operation amounts to. -/
def reply {α : Type} (f : α → Json) : Except SaleError α → Response
  | .ok a => .found (f a)
  | .error e => .ofSaleError e

/-- Tells an administrator that something was done. -/
def acknowledge : StateM Server Response := do
  return .found (.obj [("ok", .bool true), ("version", .nat (← get).world.book.version)])

/-- Acknowledges an operation that succeeds. -/
def acknowledgeSale (p : Program (Except SaleError Unit)) : StateM Server Response := do
  match ← runSale p with
  | .ok () => acknowledge
  | .error e => return .ofSaleError e

/-! ## looking -/

/-- The server is up. -/
def health : Response :=
  .found (.obj [("ok", .bool true), ("service", .str name), ("version", .str version)])

/-- The sums of the sale, which everybody who watches is told as well. -/
def status : StateM Server Response := do
  let s ← get
  publish [.status s.world.stats]
  return .found (.obj [("config_hash", .str s.configHash), ("stats", s.world.stats.encode)])

/-- The tiers with their sums. -/
def tiers (s : Server) : Response := .found (.arr (s.world.book.tiers.map Tier.encode))

/-- The running sums of the investor of an encoded name. -/
def investor (s : Server) (segment : String) : Response :=
  match Text.percentDecode? segment with
  | none => .bare .badRequest
  | some name =>
    match s.world.book.caps.state? ⟨name⟩ with
    | some sums => .found sums.encode
    | none => .refusal .notFound "UNKNOWN_INVESTOR" s!"{name} has not invested" false

/-- The purchases that are not settled yet. -/
def pending (s : Server) : Response :=
  .found (.arr (s.world.book.pendingRecords.map fun r => r.purchaseId.encode))

/-! ## acting -/

/-- Settles the purchase of an encoded identifier again. -/
def retry (segment : String) : StateM Server Response := do
  match (Text.percentDecode? segment).bind Uuid.ofText? with
  | none => return .bare .badRequest
  | some id => return reply SettlementStatus.encode (← runSale (Sale.retrySettlement id))

/-- Ends the sale. -/
def finalize : StateM Server Response := do
  match ← runSale Sale.finalize with
  | .error e => return .ofSaleError e
  | .ok unsold =>
    return .found (.obj [("ok", .bool true), ("unsold_tokens", unsold.encode),
      ("version", .nat (← get).world.book.version)])

/-- Lets an investor buy or not. -/
def updateAllowance (u : AllowanceUpdate) : StateM Server Response := do
  modify fun s => { s with world := { s.world with
    allowList :=
      if u.allowed then s.world.allowList.allow u.investor u.investorClass
      else s.world.allowList.revoke u.investor } }
  let allowed := if u.allowed then "true" else "false"
  publish [.logLine "INFO" s!"whitelist {u.investor} allowed={allowed}"]
  acknowledge

/-- Files a rate as observed now. -/
def updateRate (u : RateUpdate) : StateM Server Response := do
  if u.quote.numerator.isZero || u.quote.denominator.isZero then
    return .refusal .badRequest "INVALID_RATE" "numerator and denominator must be > 0" false
  else
    modify fun s => { s with world := { s.world with
      rates := s.world.rates.insert u.currency (u.quote.at s.world.now) } }
    acknowledge

/-! ## all routes -/

/-- Serves a request that has found its route. -/
def serve (r : Request) : Route → StateM Server Response
  | .health => return health
  | .stream => return .stream (← get).notices.length
  | .status => status
  | .tiers => return (← get).tiers
  | .investor segment => return (← get).investor segment
  | .pending => return (← get).pending
  | .preview => withBody PurchaseRequest.decode r fun p => do
    return reply AllocationPlan.encode (← runSale (Sale.preview p))
  | .purchase => withBody PurchaseRequest.decode r fun p => do
    return reply PurchaseReceipt.encode (← runSale (Sale.purchase p))
  | .retry segment => retry segment
  | .pause => asAdmin r (acknowledgeSale (Sale.setPaused true))
  | .unpause => asAdmin r (acknowledgeSale (Sale.setPaused false))
  | .finalize => asAdmin r finalize
  | .whitelist => withBody AllowanceUpdate.decode r fun u => asAdmin r (updateAllowance u)
  | .rates => withBody RateUpdate.decode r fun u => asAdmin r (updateRate u)
  | .limitOverride => withBody LimitUpdate.decode r fun u =>
    asAdmin r (acknowledgeSale (Sale.setLimitOverride u.investor u.limit))

/-- The response to a request. -/
def respond (r : Request) : StateM Server Response := do
  match Route.ofSegments? r.segments with
  | none => return .bare .notFound
  | some route =>
    if route.accepts r.method then
      let response ← serve r route
      return if r.method = .head then response.withoutContent else response
    else return .bare .methodNotAllowed

end Server

end TokenSale
