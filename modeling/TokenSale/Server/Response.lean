import TokenSale.Sale.Error
import TokenSale.Server.Request

/-!
# TokenSale.Server.Response

What a server answers: a status, and a document or a stream of notices.
Requests that the server turns down before it looks into them get the bare
status.

* `Response.refusal` — a refusal with its code and message;
* `Response.ofSaleError` — the refusal of a sale, with the status that fits it.
-/

namespace TokenSale

/-- The status of a response. -/
inductive Status where
  | ok
  | badRequest
  | unauthorized
  | forbidden
  | notFound
  | methodNotAllowed
  | conflict
  | unsupportedMediaType
  | unprocessable
  | unavailable
  deriving DecidableEq

namespace Status

/-- The number of a status. -/
def code : Status → Nat
  | ok => 200
  | badRequest => 400
  | unauthorized => 401
  | forbidden => 403
  | notFound => 404
  | methodNotAllowed => 405
  | conflict => 409
  | unsupportedMediaType => 415
  | unprocessable => 422
  | unavailable => 503

/-- Whether a request was granted. -/
def isSuccess (s : Status) : Bool := s.code / 100 == 2

/-- The status of a refusal: that of its cause, or of its class. -/
def ofSaleError (e : SaleError) : Status :=
  match e with
  | .duplicatePurchase _ => conflict
  | .unknownPurchase _ => notFound
  | .notWhitelisted _ => forbidden
  | e =>
    match e.errorClass with
    | .inputValidation => badRequest
    | .capacity | .lifecycle => conflict
    | .infrastructure => unavailable

/-- The status for a body that cannot be used. -/
def ofBodyFault : BodyFault → Status
  | .missing => unsupportedMediaType
  | .broken => badRequest
  | .mismatch => unprocessable

end Status

/-- What a response carries. -/
inductive Content where
  | nothing
  | document (v : Json)
  /-- All notices from a number on. -/
  | notices (first : Nat)

/-- What a response says it carries. -/
inductive MediaType where
  | json
  | eventStream
  deriving DecidableEq

/-- The name of a media type. -/
def MediaType.name : MediaType → String
  | json => "application/json"
  | eventStream => "text/event-stream"

/-- A response. -/
structure Response where
  status : Status
  mediaType : Option MediaType
  content : Content

namespace Response

/-- A status and nothing else. -/
def bare (status : Status) : Response := ⟨status, none, .nothing⟩

/-- A document with a status. -/
def json (status : Status) (v : Json) : Response := ⟨status, some .json, .document v⟩

/-- A document that was asked for. -/
def found (v : Json) : Response := json .ok v

/-- A stream of notices. -/
def stream (first : Nat) : Response := ⟨.ok, some .eventStream, .notices first⟩

/-- A refusal with its code and message, and whether to try again later. -/
def refusal (status : Status) (code message : String) (retryable : Bool) : Response :=
  json status
    (.obj [("error", .str code), ("message", .str message), ("retryable", .bool retryable)])

/-- The refusal of a sale. -/
def ofSaleError (e : SaleError) : Response :=
  refusal (.ofSaleError e) e.code e.message e.isRetryable

/-- The same without what it carries. -/
def withoutContent (r : Response) : Response := { r with content := .nothing }

end Response

end TokenSale
