import TokenSale.Json.Pointer
import TokenSale.Text.Blank
import TokenSale.Text.Hex
import TokenSale.Text.Utf8

/-!
# TokenSale.Setup.Secrets

Credentials do not belong into a configuration; it names the variables that
hold them.

* `Secret.find?` — the first leaf that looks like a credential;
* `AdminToken.resolve` — the token of the variable that a configuration names.
-/

namespace TokenSale

namespace Secret

/-- How credentials of well-known kinds start. -/
def marks : List String :=
  ["sk-", "sk_live", "sk_test", "AKIA", "-----BEGIN", "ghp_", "glpat-", "xoxb-", "xoxp-"]

/-- Texts of fewer bytes are no credentials. -/
def leastBytes : Nat := 8

/-- A private key in hex has at least this many digits; addresses have fewer. -/
def leastKeyDigits : Nat := 64

/-- Whether a text looks like a credential. -/
def isLikely (s : String) : Bool :=
  let cs := Text.trim s.toList
  if (Text.utf8 (String.ofList cs)).length < leastBytes then false
  else
    match cs with
    | '0' :: 'x' :: digits =>
      leastKeyDigits ≤ digits.length && digits.all fun c => (Text.hexValue? c).isSome
    | _ => marks.any fun m => m.toList.isPrefixOf cs

/-- The path of the first string in a document that looks like a credential. -/
def find? (v : Json) : Option String :=
  v.leaves.find? fun path => ((v.pointer? path).bind Json.string?).any isLikely

end Secret

/-- The token that guards the administrative routes. -/
structure AdminToken where
  secret : String
  deriving DecidableEq

/-- The variable that should hold the token is not set, or blank. -/
structure MissingSecret where
  variableName : String
  deriving DecidableEq

/-- The message about a variable that is not set. -/
def MissingSecret.message (e : MissingSecret) : String :=
  s!"SECRETS_MISSING: env var '{e.variableName}' (daemon admin token) is not set or empty"

namespace AdminToken

/-- Whether what was presented is the token. -/
def matches? (t : AdminToken) (presented : String) : Bool := t.secret == presented

/-- The text of a token in logs, which does not give it away. -/
def redacted (_ : AdminToken) : String := "AdminToken(<REDACTED>)"

/-- The variable that a configuration names for the token. -/
def variableName? (config : Json) : Option String :=
  (((config.pointer? "/daemon/admin_token_env").bind Json.string?).map Text.trimmed).filter
    fun s => !s.isEmpty

/-- The token of the variable that a configuration names, if it names one. -/
def resolve (config : Json) (environment : String → Option String) :
    Except MissingSecret (Option AdminToken) :=
  match variableName? config with
  | none => .ok none
  | some variableName =>
    match (environment variableName).filter fun s => !Text.isBlankText s with
    | some secret => .ok (some ⟨secret⟩)
    | none => .error ⟨variableName⟩

end AdminToken

end TokenSale
