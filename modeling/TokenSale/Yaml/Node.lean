import TokenSale.Yaml.Token

/-!
# TokenSale.Yaml.Node

The tree of a document: scalars, sequences and mappings with their tags.  A
name can be given to a node and stands for it further on; such a reference is
replaced by the node itself.

* `Node.ofTokens?` — the only document that the tokens of a text spell.
-/

namespace TokenSale.Yaml

/-- A node with its tag, if it has one. -/
inductive Node where
  | scalar (tag : Option String) (style : ScalarStyle) (text : String)
  | sequence (tag : Option String) (items : List Node)
  | mapping (tag : Option String) (entries : List (Node × Node))

namespace Node

/-- A value that is left out. -/
def absent : Node := .scalar none .plain ""

/-- What is known about a named node. -/
structure Named where
  /-- Nothing while the node is still being read. -/
  node : Option Node
  /-- The references within it, including those within what they stand for. -/
  references : Nat

/-- Tokens under way to a tree. -/
structure Source where
  tokens : List Token
  /-- The prefixes of tag handles. -/
  prefixes : List (List Char × List Char)
  names : List (List Char × Named)
  /-- Everything met so far: scalars, references, starts and ends. -/
  events : Nat
  /-- References followed so far. -/
  references : Nat

/-- A reader of tokens. -/
abbrev Reader := StateT Source Option

namespace Reader

/-- The next token. -/
def peek : Reader (Option Token) := fun s => some (s.tokens.head?, s)

/-- Passes over the next token. -/
def skip : Reader Unit := fun s => some ((), { s with tokens := s.tokens.tail })

/-- Passes over the next token, which must be a given one. -/
def expect (t : Token) : Reader Unit := fun s =>
  match s.tokens with
  | u :: rest => if u = t then some ((), { s with tokens := rest }) else none
  | [] => none

/-- The tokens make no document. -/
def refuse {α : Type} : Reader α := fun _ => none

/-- Counts events. -/
def count (n : Nat) : Reader Unit := fun s => some ((), { s with events := s.events + n })

/-- A node of its own. -/
def leaf (n : Node) : Reader Node := do
  count 1
  return n

/-- Reads a node under a name; the name cannot be used within the node. -/
def named (name : Option (List Char)) (read : Reader Node) : Reader Node :=
  match name with
  | none => read
  | some name => fun s => do
    let before := s.references
    let (n, s) ← read { s with names := (name, ⟨none, 0⟩) :: s.names }
    return (n, { s with names := (name, ⟨some n, s.references - before⟩) :: s.names })

/-- The node that a name stands for. -/
def follow (name : List Char) : Reader Node := fun s => do
  let found ← s.names.lookup name
  let n ← found.node
  return (n, { s with
    events := s.events + 1, references := s.references + 1 + found.references })

/-- The tag that a written one stands for. -/
def resolve (t : TagName) : Reader String := fun s => do
  let text ← if t.handle.isEmpty then some [] else s.prefixes.lookup t.handle
  return (String.ofList (text ++ t.suffix), s)

/-- The name and the tag in front of a node, in either order. -/
def properties : Reader (Option (List Char) × Option TagName) := do
  match ← peek with
  | some (.anchor name) =>
    skip
    match ← peek with
    | some (.tag t) => skip; return (some name, some t)
    | _ => return (some name, none)
  | some (.tag t) =>
    skip
    match ← peek with
    | some (.anchor name) => skip; return (some name, some t)
    | _ => return (none, some t)
  | _ => return (none, none)

end Reader

open Reader

/-- Whether a token ends an entry of a block collection that has no value. -/
def endsEntry : Option Token → Bool
  | some .key | some .value | some .blockEnd => true
  | _ => false

mutual

/-- One node.  `block` allows block collections, `indentless` a sequence at
the indentation of the mapping around it. -/
def read : Nat → Bool → Bool → Reader Node
  | 0, _, _ => refuse
  | fuel + 1, block, indentless => do
    if let some (.alias name) := ← peek then
      skip
      follow name
    else
      let (name, tagName) ← properties
      let tag ← tagName.mapM resolve
      match ← peek with
      | some .dash =>
        if indentless then
          count 2
          named name do return .sequence tag (← readDashes fuel)
        else empty name tag
      | some (.scalar style text) =>
        skip
        let tag := tag.filter (· ≠ "!")
        named name (leaf (.scalar tag style (String.ofList text)))
      | some .openBracket =>
        skip
        count 2
        named name do return .sequence tag (← readFlowItems fuel true)
      | some .openBrace =>
        skip
        count 2
        named name do return .mapping tag (← readFlowEntries fuel true)
      | some .blockSequence =>
        if block then
          skip
          count 2
          named name do return .sequence tag (← readItems fuel)
        else empty name tag
      | some .blockMapping =>
        if block then
          skip
          count 2
          named name do return .mapping tag (← readEntries fuel)
        else empty name tag
      | _ => empty name tag
where
  /-- A node of which there is nothing but a name or a tag. -/
  empty (name : Option (List Char)) (tag : Option String) : Reader Node :=
    if name.isNone && tag.isNone then refuse else named name (leaf (.scalar tag .plain ""))

/-- The items of a block sequence. -/
def readItems : Nat → Reader (List Node)
  | 0 => refuse
  | fuel + 1 => do
    match ← peek with
    | some .dash =>
      skip
      let next ← peek
      let n ←
        if next = some .dash ∨ next = some .blockEnd then leaf absent else read fuel true false
      return n :: (← readItems fuel)
    | some .blockEnd => skip; return []
    | _ => refuse

/-- The items of a sequence at the indentation of the mapping around it. -/
def readDashes : Nat → Reader (List Node)
  | 0 => refuse
  | fuel + 1 => do
    match ← peek with
    | some .dash =>
      skip
      let next ← peek
      let n ← if next = some .dash || endsEntry next then leaf absent else read fuel true false
      return n :: (← readDashes fuel)
    | _ => return []

/-- The entries of a block mapping. -/
def readEntries : Nat → Reader (List (Node × Node))
  | 0 => refuse
  | fuel + 1 => do
    match ← peek with
    | some .key =>
      skip
      let k ← if endsEntry (← peek) then leaf absent else read fuel true true
      let v ← readValue fuel
      return (k, v) :: (← readEntries fuel)
    | some .blockEnd => skip; return []
    | _ => refuse

/-- The value of an entry of a block mapping. -/
def readValue : Nat → Reader Node
  | 0 => refuse
  | fuel + 1 => do
    match ← peek with
    | some .value =>
      skip
      if endsEntry (← peek) then leaf absent else read fuel true true
    | _ => leaf absent

/-- The items of a flow sequence; an item may be a mapping of one entry. -/
def readFlowItems : Nat → Bool → Reader (List Node)
  | 0, _ => refuse
  | fuel + 1, first => do
    if (← peek) = some .closeBracket then
      skip
      return []
    else
      if !first then expect .comma
      match ← peek with
      | some .closeBracket => skip; return []
      | some .key =>
        skip
        count 2
        let entry ← readFlowPair fuel
        return .mapping none [entry] :: (← readFlowItems fuel false)
      | _ =>
        let n ← read fuel false false
        return n :: (← readFlowItems fuel false)

/-- The only entry of a mapping within a flow sequence. -/
def readFlowPair : Nat → Reader (Node × Node)
  | 0 => refuse
  | fuel + 1 => do
    let next ← peek
    let k ←
      if next = some .value ∨ next = some .comma ∨ next = some .closeBracket then
        skip
        leaf absent
      else read fuel false false
    let v ← readFlowValue fuel .closeBracket
    return (k, v)

/-- The entries of a flow mapping; a key may stand alone. -/
def readFlowEntries : Nat → Bool → Reader (List (Node × Node))
  | 0, _ => refuse
  | fuel + 1, first => do
    if (← peek) = some .closeBrace then
      skip
      return []
    else
      if !first then expect .comma
      match ← peek with
      | some .closeBrace => skip; return []
      | some .key =>
        skip
        let next ← peek
        let k ←
          if next = some .value ∨ next = some .comma ∨ next = some .closeBrace then leaf absent
          else read fuel false false
        let v ← readFlowValue fuel .closeBrace
        return (k, v) :: (← readFlowEntries fuel false)
      | _ =>
        let k ← read fuel false false
        count 1
        return (k, absent) :: (← readFlowEntries fuel false)

/-- The value of an entry within a flow collection that ends with `close`. -/
def readFlowValue : Nat → Token → Reader Node
  | 0, _ => refuse
  | fuel + 1, close => do
    if (← peek) = some .value then
      skip
      let next ← peek
      if next = some .comma ∨ next = some close then leaf absent else read fuel false false
    else leaf absent

end

/-! ## documents -/

/-- The prefixes that need no directive. -/
def commonPrefixes : List (List Char × List Char) :=
  [("!".toList, "!".toList), ("!!".toList, "tag:yaml.org,2002:".toList)]

/-- The directives in front of a document. -/
def readDirectives : List Token → Bool → List (List Char × List Char) →
    Option (List (List Char × List Char) × List Token)
  | .version major minor :: rest, seen, prefixes =>
    if !seen && major = 1 && (minor = 1 || minor = 2) then readDirectives rest true prefixes
    else none
  | .tagPrefix handle text :: rest, seen, prefixes =>
    if (prefixes.lookup handle).isSome then none
    else readDirectives rest seen ((handle, text) :: prefixes)
  | tokens, _, prefixes => some (prefixes ++ commonPrefixes, tokens)

/-- Whether a document that was opened holds nothing. -/
def startsEmpty : List Token → Bool
  | [] | .version .. :: _ | .tagPrefix .. :: _ | .documentStart :: _ | .documentEnd :: _ => true
  | _ => false

/-- Whether tokens start with a directive or the start of a document. -/
def isExplicit : List Token → Bool
  | .version .. :: _ | .tagPrefix .. :: _ | .documentStart :: _ => true
  | _ => false

/-- One document at the front of tokens. -/
def readDocument (tokens : List Token) : Option (Node × Source) := do
  let fuel := 4 * tokens.length + 4
  if isExplicit tokens then
    let (prefixes, tokens) ← readDirectives tokens false []
    match tokens with
    | .documentStart :: tokens =>
      let s : Source := ⟨tokens, prefixes, [], 0, 0⟩
      if startsEmpty tokens then leaf absent s else read fuel true false s
    | _ => none
  else read fuel true false ⟨tokens, commonPrefixes, [], 0, 0⟩

/-- Following more references than this for every event is refused. -/
def referenceLimit : Nat := 100

mutual

/-- How deep collections are nested. -/
def depth : Node → Nat
  | .scalar .. => 0
  | .sequence _ items => depthOfItems items + 1
  | .mapping _ entries => depthOfEntries entries + 1

/-- The greatest depth of items. -/
def depthOfItems : List Node → Nat
  | [] => 0
  | n :: rest => max n.depth (depthOfItems rest)

/-- The greatest depth of keys and values. -/
def depthOfEntries : List (Node × Node) → Nat
  | [] => 0
  | (k, v) :: rest => max (max k.depth v.depth) (depthOfEntries rest)

end

/-- Collections nested deeper than this are refused. -/
def depthLimit : Nat := 128

/-- The document that tokens spell, or a node that is left out if there are
no tokens; further documents are refused. -/
def ofTokens? (tokens : List Token) : Option Node :=
  if tokens.isEmpty then some absent
  else do
    let (n, s) ← readDocument tokens
    let excess := s.references > referenceLimit * s.events
    let rest := s.tokens.dropWhile fun t => t = .documentEnd
    if !rest.isEmpty || excess then none
    else if n.depth > depthLimit then none
    else some n

end Node

end TokenSale.Yaml
