import TokenSale.Server.Request

/-!
# TokenSale.Server.Route

Where a request goes.  A route is found by the path alone; whether it accepts
the method is asked afterwards.
-/

namespace TokenSale

/-- What a server can be asked for. -/
inductive Route where
  | health
  | stream
  | status
  | tiers
  /-- The sums of the investor of an encoded name. -/
  | investor (segment : String)
  | preview
  | purchase
  | pending
  /-- Settling the purchase of an encoded identifier again. -/
  | retry (segment : String)
  | pause
  | unpause
  | finalize
  | whitelist
  | rates
  | limitOverride
  deriving DecidableEq

namespace Route

/-- The route of a path. -/
def ofSegments? : List String → Option Route
  | ["", "v1", "health"] => some health
  | ["", "v1", "stream"] => some stream
  | ["", "v1", "sale", "status"] => some status
  | ["", "v1", "sale", "tiers"] => some tiers
  | ["", "v1", "sale", "investors", segment] =>
    if segment = "" then none else some (investor segment)
  | ["", "v1", "sale", "preview"] => some preview
  | ["", "v1", "sale", "purchase"] => some purchase
  | ["", "v1", "sale", "pending"] => some pending
  | ["", "v1", "sale", "purchases", segment, "retry"] =>
    if segment = "" then none else some (retry segment)
  | ["", "v1", "admin", "pause"] => some pause
  | ["", "v1", "admin", "unpause"] => some unpause
  | ["", "v1", "admin", "finalize"] => some finalize
  | ["", "v1", "admin", "whitelist"] => some whitelist
  | ["", "v1", "admin", "rates"] => some rates
  | ["", "v1", "admin", "limit-override"] => some limitOverride
  | _ => none

/-- Whether a route only looks; the others act. -/
def looks : Route → Bool
  | health | stream | status | tiers | investor _ | pending => true
  | _ => false

/-- Whether a route is for administrators only. -/
def isAdmin : Route → Bool
  | pause | unpause | finalize | whitelist | rates | limitOverride => true
  | _ => false

/-- Whether a route accepts a method. -/
def accepts (r : Route) : Method → Bool
  | .get | .head => r.looks
  | .post => !r.looks
  | .other => false

end Route

end TokenSale
