import TokenSale.Json.Decode
import TokenSale.Json.Reader
import TokenSale.Text.Percent

/-!
# TokenSale.Server.Request

A request as it reaches the server.

* `Request.segments` — the path, cut at its slashes;
* `Request.credential` — what a request presents as a token;
* `Request.read` — the value in its body.
-/

namespace TokenSale

/-- What a request wants to do; other methods are never allowed. -/
inductive Method where
  | get
  /-- The same as `get`, without the body of the response. -/
  | head
  | post
  | other
  deriving DecidableEq

/-- The method of a name. -/
def Method.ofName (name : String) : Method :=
  if name = "GET" then get
  else if name = "HEAD" then head
  else if name = "POST" then post
  else other

/-- A request.  Whatever body it has is declared to be JSON. -/
structure Request where
  method : Method
  /-- The path, with a query behind it or not. -/
  target : String
  authorization : Option String
  body : Option String
  deriving DecidableEq

/-- Why the body of a request cannot be used. -/
inductive BodyFault where
  /-- There is none. -/
  | missing
  /-- It is no JSON. -/
  | broken
  /-- It does not spell the value. -/
  | mismatch
  deriving DecidableEq

namespace Request

/-- The path of a target: what stands before its query. -/
def pathOf (target : List Char) : List Char := target.takeWhile fun c => c != '?' && c != '#'

/-- The segments of the path. -/
def segments (r : Request) : List String :=
  ((pathOf r.target.toList).splitOn '/').map String.ofList

/-- Whether a character may stand in a header that is read as text. -/
def isHeaderChar (c : Char) : Bool := c == '\t' || (32 ≤ c.toNat && c.toNat < 127)

/-- What the request presents as a token: what stands behind `Bearer ` in its
authorization, or nothing. -/
def credential (r : Request) : String :=
  match r.authorization with
  | none => ""
  | some header =>
    if header.toList.all isHeaderChar && "Bearer ".toList.isPrefixOf header.toList then
      String.ofList (header.toList.drop "Bearer ".toList.length)
    else ""

/-- What a failed reading of a whole document says about a body. -/
def faultOf : DecodeError → BodyFault
  | .misplaced => .broken
  | _ => .mismatch

/-- What is wrong with a body that breaks: a value before the break that is
refused comes first. -/
def faultBeforeBreak {α : Type} (d : Decoder α) (v : Json) : BodyFault :=
  match d v with
  | .ok _ | .error (.missingMember _) => .broken
  | .error e => faultOf e

/-- The value at the front of a text; what follows it does not count. -/
def readText {α : Type} (d : Decoder α) (cs : List Char) : Except BodyFault α :=
  match Json.readPrefix? cs with
  | some (v, _) => (d v).mapError faultOf
  | none => .error (((Json.beforeBreak? cs).map (faultBeforeBreak d)).getD .broken)

/-- The value in the body. -/
def read {α : Type} (d : Decoder α) (r : Request) : Except BodyFault α :=
  match r.body with
  | none => .error .missing
  | some body => readText d body.toList

end Request

end TokenSale
