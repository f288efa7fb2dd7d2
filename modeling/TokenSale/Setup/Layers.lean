import TokenSale.Digest.Hex
import TokenSale.Json.Printer
import TokenSale.Setup.Secrets
import TokenSale.Yaml.Lexer
import TokenSale.Yaml.Value

/-!
# TokenSale.Setup.Layers

A configuration is the merger of documents: objects are merged key by key,
anything else in a later document replaces what was there.

* `merge` — two documents;
* `ConfigDocument.ofLayers` — a list of documents, each over those before it;
* `ConfigDocument.hash` — the same for equal configurations.
-/

namespace TokenSale

/-! ## merging -/

mutual

/-- `a` under the document given last. -/
def Json.merge (a : Json) : Json → Json
  | .obj members => .obj (mergeMembers (a.members?.getD []) members)
  | b => b

/-- Members over those that are there. -/
def Json.mergeMembers (under : List (String × Json)) :
    List (String × Json) → List (String × Json)
  | [] => under
  | (k, b) :: rest =>
    mergeMembers (Directory.place k (merge ((Directory.find k under).getD .null) b) under) rest

end

/-! ## configurations -/

/-- Why there is no configuration. -/
inductive LayerError where
  /-- A layer is no document. -/
  | unreadable (layer : Nat)
  /-- A layer has keys that are no texts. -/
  | unconvertible
  /-- A leaf looks like a credential. -/
  | secretFound (leaf : String)
  deriving DecidableEq

/-- The message of an error. -/
def LayerError.message : LayerError → String
  | unreadable layer => s!"invalid yaml in layer {layer}"
  | unconvertible => "yaml->json conversion failed"
  | secretFound leaf => s!"CONFIG_SECRET_DETECTED leaf={leaf} value=REDACTED"

/-- A configuration. -/
structure ConfigDocument where
  content : Json

namespace ConfigDocument

/-- The text that is the same for equal configurations. -/
def text (c : ConfigDocument) : String := c.content.canonical

/-- The hash of the text. -/
def hash (c : ConfigDocument) : String := Digest.sha256Hex c.text

/-- The document that one layer spells. -/
def readLayer (layer : Nat) (text : String) : Except LayerError Json :=
  match (((Yaml.Token.ofText? text.toList).bind Yaml.Node.ofTokens?).bind Yaml.Value.ofNode?) with
  | none => .error (.unreadable layer)
  | some v =>
    match v.toJson? with
    | none => .error .unconvertible
    | some json => .ok json.settled

/-- Merges the layers from number `layer` on over a document. -/
def mergeLayers (layer : Nat) (under : Json) : List String → Except LayerError Json
  | [] => .ok under
  | text :: rest =>
    match readLayer layer text with
    | .error e => .error e
    | .ok json => mergeLayers (layer + 1) (under.merge json) rest

/-- The configuration that layers amount to. -/
def ofLayers (layers : List String) : Except LayerError ConfigDocument :=
  match mergeLayers 0 (.obj []) layers with
  | .error e => .error e
  | .ok content =>
    match Secret.find? content with
    | some leaf => .error (.secretFound leaf)
    | none => .ok ⟨content⟩

end ConfigDocument

end TokenSale
