import TokenSale.Yaml.Scalar
import TokenSale.Yaml.Token

/-!
# TokenSale.Yaml.Lexer

From the text of a document to its tokens.  Two things follow from the layout
of a text rather than from its characters: block collections, which start and
end with their indentation, and keys, which are told by the colon behind them.
A place where a key could start is therefore remembered until a colon
confirms it or the line ends.
-/

namespace TokenSale.Yaml

/-- A place where a key could start. -/
structure PossibleKey where
  /-- How many tokens stand before it. -/
  number : Nat
  /-- Nothing but a key may stand here. -/
  required : Bool
  index : Nat
  line : Nat
  column : Nat

/-- A text under way to its tokens. -/
structure Lexer where
  cursor : Cursor
  /-- The columns of the open block collections, the innermost first. -/
  indents : List Nat
  /-- Whether a key could start here. -/
  keyAllowed : Bool
  /-- The possible key outside all flow collections and in each open one, the
  innermost first. -/
  keys : List (Option PossibleKey)
  tokens : Array Token

namespace Lexer

/-- The start of a text. -/
def start (text : List Char) : Lexer := ⟨.start text, [], true, [none], #[]⟩

/-- Whether a flow collection is open. -/
def inFlow (l : Lexer) : Bool := 1 < l.keys.length

/-- Appends a token. -/
def emit (l : Lexer) (t : Token) : Lexer := { l with tokens := l.tokens.push t }

/-! ## layout -/

/-- Opens a block collection at a column right of those that are open. -/
def openBlock (l : Lexer) (column number : Nat) (t : Token) : Lexer :=
  if l.inFlow || l.indents.head?.any (column ≤ ·) then l
  else { l with
    indents := column :: l.indents
    tokens := l.tokens.toList.insertIdx number t |>.toArray }

/-- Closes the block collections whose column fails a test. -/
def closeBlocks (l : Lexer) (keep : Nat → Bool) : Lexer :=
  if l.inFlow then l
  else
    let closed := (l.indents.takeWhile fun i => !keep i).length
    { l with
      indents := l.indents.drop closed
      tokens := l.tokens ++ Array.replicate closed Token.blockEnd }

/-- Closes the block collections right of a column. -/
def closeBlocksTo (l : Lexer) (column : Nat) : Lexer := l.closeBlocks (· ≤ column)

/-- Closes all block collections. -/
def closeAllBlocks (l : Lexer) : Lexer := l.closeBlocks fun _ => false

/-! ## possible keys -/

/-- A possible key that was not confirmed is no key; where one is required,
that is an error. -/
def drop? (k : Option PossibleKey) : Option Unit :=
  if k.any PossibleKey.required then none else some ()

/-- Gives up the possible key of the innermost collection. -/
def dropKey (l : Lexer) : Option Lexer := do
  drop? l.keys.head?.join
  return { l with keys := none :: l.keys.tail }

/-- Remembers that a key could start here. -/
def saveKey (l : Lexer) : Option Lexer :=
  if l.keyAllowed then do
    let l ← l.dropKey
    let c := l.cursor
    let required := !l.inFlow && l.indents.head? == some c.column
    return { l with
      keys := some ⟨l.tokens.size, required, c.index, c.line, c.column⟩ :: l.keys.tail }
  else some l

/-- Gives up the possible keys that are too far behind: keys fit on one line
and within a thousand and twenty-four characters. -/
def dropStaleKeys (l : Lexer) : Option Lexer := do
  let keys ← l.keys.mapM fun
    | none => some none
    | some k =>
      if k.line < l.cursor.line || k.index + 1024 < l.cursor.index then
        (drop? (some k)).map fun _ => none
      else some (some k)
  return { l with keys }

/-! ## between tokens -/

/-- Passes over blanks, comments and line breaks.  Where a key could start,
tabs do not count as blanks. -/
def skipSpace (l : Lexer) : Nat → Lexer
  | 0 => l
  | fuel + 1 =>
    let c := if l.cursor.index == 0 && l.cursor.sees '\ufeff' then l.cursor.advance 1 else l.cursor
    let tabs := l.inFlow || !l.keyAllowed
    let c := c.skipWhile fun x => x == ' ' || (tabs && x == '\t')
    let c := if c.sees '#' then c.skipLine else c
    if c.rest.head?.any isBreak then
      skipSpace { l with cursor := c.takeBreak.2, keyAllowed := l.keyAllowed || !l.inFlow } fuel
    else { l with cursor := c }

/-! ## directives, anchors and tags -/

/-- The number of a version. -/
def takeVersionNumber (c : Cursor) : Option (Nat × Cursor) :=
  let ds := c.rest.takeWhile Char.isDigit
  if ds.isEmpty || 9 < ds.length then none
  else some (Nat.ofDigitChars 10 ds 0, c.advance ds.length)

/-- The handle of a tag; in a directive it ends with a mark. -/
def takeHandle (directive : Bool) (c : Cursor) : Option (List Char × Cursor) :=
  if !c.sees '!' then none
  else
    let name := (c.rest.drop 1).takeWhile isNameChar
    let c := c.advance (name.length + 1)
    if c.sees '!' then some ('!' :: name ++ ['!'], c.advance 1)
    else if directive && !name.isEmpty then none
    else some ('!' :: name, c)

/-- A character of a tag, apart from escapes. -/
def isTagChar (flowMarks : Bool) (c : Char) : Bool :=
  isNameChar c || ";/?:@&=+$.!~*'()".toList.contains c || (flowMarks && ",[]".toList.contains c)

/-- The bytes that one escape of a tag stands for: as many as their first
one says. -/
def takeTagEscape (cs : List Char) : Option (List Char × Nat) := do
  let first ← byte? cs
  let more ←
    if first < 0x80 then some 0
    else if 0xC0 ≤ first ∧ first < 0xE0 then some 1
    else if 0xE0 ≤ first ∧ first < 0xF0 then some 2
    else if 0xF0 ≤ first ∧ first < 0xF8 then some 3
    else none
  let bytes ← (List.range (more + 1)).mapM fun i => byte? (cs.drop (3 * i))
  let text ← String.fromUTF8? (ByteArray.mk (bytes.map Nat.toUInt8).toArray)
  return (text.toList, 3 * (more + 1))
where
  byte? (cs : List Char) : Option Nat :=
    match cs with
    | '%' :: a :: b :: _ => Text.hexNumber? [a, b]
    | _ => none

/-- The text of a tag with its escapes read, and how long its written form
is; `fuel` bounds its length. -/
def takeTagText (flowMarks : Bool) : Nat → List Char → Option (List Char × Nat)
  | 0, _ => some ([], 0)
  | fuel + 1, cs =>
    match cs with
    | [] => some ([], 0)
    | x :: rest =>
      if x == '%' then do
        let (text, n) ← takeTagEscape cs
        let (more, m) ← takeTagText flowMarks fuel (cs.drop n)
        return (text ++ more, n + m)
      else if isTagChar flowMarks x then do
        let (more, m) ← takeTagText flowMarks fuel rest
        return (x :: more, m + 1)
      else some ([], 0)

/-- A directive from behind its indicator on, and the token that it is. -/
def takeDirective (c : Cursor) : Option (Token × Cursor) := do
  let name := c.rest.takeWhile isNameChar
  let c := c.advance name.length
  if name.isEmpty || !endsWord c.rest.head? then none
  else
    let c := c.skipWhile isBlank
    let (t, c) ←
      if name = "YAML".toList then do
        let (major, c) ← takeVersionNumber c
        if !c.sees '.' then none
        else
          let (minor, c) ← takeVersionNumber (c.advance 1)
          some (Token.version major minor, c)
      else if name = "TAG".toList then do
        let (handle, c) ← takeHandle true c
        if !c.rest.head?.any isBlank then none
        else
          let c := c.skipWhile isBlank
          let (text, n) ← takeTagText true (c.rest.length + 1) c.rest
          let c := c.advance n
          if text.isEmpty || !endsWord c.rest.head? then none
          else some (Token.tagPrefix handle text, c)
      else none
    let c := c.skipWhile isBlank
    let c := if c.sees '#' then c.skipLine else c
    if c.rest.isEmpty || c.rest.head?.any isBreak then some (t, c.takeBreak.2) else none

/-- A tag from its mark on. -/
def takeTag (inFlow : Bool) (c : Cursor) : Option (TagName × Cursor) := do
  let (name, c) ←
    if c.look 1 = some '<' then do
      let c := c.advance 2
      let (text, n) ← takeTagText true (c.rest.length + 1) c.rest
      let c := c.advance n
      if text.isEmpty || !c.sees '>' then none else some (TagName.mk [] text, c.advance 1)
    else do
      let (handle, c) ← takeHandle false c
      let (text, n) ← takeTagText false (c.rest.length + 1) c.rest
      let c := c.advance n
      if 1 < handle.length && handle.getLast? == some '!' then
        if text.isEmpty then none else some (TagName.mk handle text, c)
      else
        let suffix := handle.drop 1 ++ text
        some (if suffix.isEmpty then TagName.mk [] ['!'] else TagName.mk ['!'] suffix, c)
  if (inFlow && c.sees ',') || endsWord c.rest.head? then some (name, c) else none

/-- The name of an anchor from behind its mark on. -/
def takeAnchor (c : Cursor) : Option (List Char × Cursor) :=
  let name := c.rest.takeWhile isNameChar
  let c := c.advance name.length
  if name.isEmpty then none
  else if endsWord c.rest.head? || c.rest.head?.any "?:,]\x7d%@`".toList.contains then
    some (name, c)
  else none

/-! ## one token -/

/-- Puts the cursor elsewhere and says whether a key could start there. -/
def moved (l : Lexer) (c : Cursor) (keyAllowed : Bool) : Lexer :=
  { l with cursor := c, keyAllowed }

/-- A document starts or ends. -/
def documentMarker (l : Lexer) (t : Token) : Option Lexer := do
  let l ← l.closeAllBlocks.dropKey
  return (l.emit t).moved (l.cursor.advance 3) false

/-- A flow collection opens. -/
def openFlow (l : Lexer) (t : Token) : Option Lexer := do
  let l ← l.saveKey
  return { l.emit t with
    cursor := l.cursor.advance 1
    keyAllowed := true
    keys := none :: l.keys }

/-- A flow collection closes. -/
def closeFlow (l : Lexer) (t : Token) : Option Lexer := do
  let l ← l.dropKey
  return { l.emit t with
    cursor := l.cursor.advance 1
    keyAllowed := false
    keys := if l.inFlow then l.keys.tail else l.keys }

/-- An entry of a block sequence starts. -/
def dash (l : Lexer) : Option Lexer :=
  if !l.inFlow && !l.keyAllowed then none
  else do
    let l ← (l.openBlock l.cursor.column l.tokens.size .blockSequence).dropKey
    return (l.emit .dash).moved (l.cursor.advance 1) true

/-- A key is announced by its mark. -/
def keyMark (l : Lexer) : Option Lexer :=
  if !l.inFlow && !l.keyAllowed then none
  else do
    let l ← (l.openBlock l.cursor.column l.tokens.size .blockMapping).dropKey
    return (l.emit .key).moved (l.cursor.advance 1) (!l.inFlow)

/-- A value starts.  If a key was possible before it, that was one. -/
def valueMark (l : Lexer) : Option Lexer :=
  match l.keys.head?.join with
  | some k =>
    let l := { l with
      tokens := l.tokens.toList.insertIdx k.number .key |>.toArray
      keys := none :: l.keys.tail }
    let l := l.openBlock k.column k.number .blockMapping
    some ((l.emit .value).moved (l.cursor.advance 1) false)
  | none =>
    if !l.inFlow && !l.keyAllowed then none
    else
      let l := l.openBlock l.cursor.column l.tokens.size .blockMapping
      some ((l.emit .value).moved (l.cursor.advance 1) (!l.inFlow))

/-- A token of which a key could be made. -/
def keyLike (l : Lexer) (take : Cursor → Option (Token × Cursor)) : Option Lexer := do
  let l ← l.saveKey
  let (t, c) ← take l.cursor
  return (l.emit t).moved c false

/-- A block scalar. -/
def block (l : Lexer) (literal : Bool) : Option Lexer := do
  let l ← l.dropKey
  let (text, c) ← blockText literal l.indents.head? (l.cursor.advance 1)
  return (l.emit (.scalar .marked text)).moved c true

/-- A plain scalar; behind a line break a key could start again. -/
def plain (l : Lexer) : Option Lexer := do
  let l ← l.saveKey
  let indent := (l.indents.head?.map (· + 1)).getD 0
  let (text, broken, c) ←
    plainText l.inFlow indent (l.cursor.rest.length + 1) l.cursor [] .none
  return (l.emit (.scalar .plain text)).moved c broken

/-- A quoted scalar. -/
def quoted (l : Lexer) (quote : Char) : Option Lexer :=
  l.keyLike fun c =>
    (quotedText quote (c.rest.length + 1) (c.advance 1) []).map fun p =>
      (.scalar .marked p.1, p.2)

/-- Whether a plain scalar can start with a character before another one. -/
def startsPlain (inFlow : Bool) (x : Char) (next : Option Char) : Bool :=
  if x == '-' then !next.any isBlank
  else if x == '?' || x == ':' then !inFlow && !endsWord next
  else !",[]\x7b\x7d#&*!|>'\"%@`".toList.contains x && !isBlank x && !isBreak x

/-- The token at the cursor. -/
def token (l : Lexer) : Option Lexer :=
  let c := l.cursor
  match c.rest with
  | [] => some l
  | x :: rest =>
    let spaced := endsWord rest.head?
    if c.column == 0 && x == '%' then do
      let l ← l.closeAllBlocks.dropKey
      let (t, c) ← takeDirective (l.cursor.advance 1)
      return (l.emit t).moved c false
    else if c.seesMarker '-' then l.documentMarker .documentStart
    else if c.seesMarker '.' then l.documentMarker .documentEnd
    else match x with
      | '[' => l.openFlow .openBracket
      | '\x7b' => l.openFlow .openBrace
      | ']' => l.closeFlow .closeBracket
      | '\x7d' => l.closeFlow .closeBrace
      | ',' => l.dropKey.map fun l => (l.emit .comma).moved (l.cursor.advance 1) true
      | '*' => l.keyLike fun c => (takeAnchor (c.advance 1)).map fun p => (.alias p.1, p.2)
      | '&' => l.keyLike fun c => (takeAnchor (c.advance 1)).map fun p => (.anchor p.1, p.2)
      | '!' => l.keyLike fun c => (takeTag l.inFlow c).map fun p => (.tag p.1, p.2)
      | '\'' => l.quoted '\''
      | '"' => l.quoted '"'
      | _ =>
        if x == '-' && spaced then l.dash
        else if x == '?' && (l.inFlow || spaced) then l.keyMark
        else if x == ':' && (l.inFlow || spaced) then l.valueMark
        else if (x == '|' || x == '>') && !l.inFlow then l.block (x == '|')
        else if startsPlain l.inFlow x rest.head? then l.plain
        else none

/-- Reads tokens until the text ends. -/
def run : Nat → Lexer → Option (List Token)
  | 0, _ => none
  | fuel + 1, l => do
    let l ← (l.skipSpace (l.cursor.rest.length + 1)).dropStaleKeys
    let l := l.closeBlocksTo l.cursor.column
    if l.cursor.rest.isEmpty then
      let l ← l.closeAllBlocks.dropKey
      return l.tokens.toList
    else run fuel (← l.token)

end Lexer

/-- The tokens of a text; nothing if it cannot be read. -/
def Token.ofText? (text : List Char) : Option (List Token) :=
  if text.all isAllowed then Lexer.run (text.length + 2) (.start text) else none

end TokenSale.Yaml
