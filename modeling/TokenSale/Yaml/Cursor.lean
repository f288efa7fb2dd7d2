/-!
# TokenSale.Yaml.Cursor

Places in the text of a YAML document.  A line break is a carriage return, a
line feed, both in this order, or one of three breaks of Unicode; the latter
two of those stay as they are when they are read, every other one becomes a
line feed.
-/

namespace TokenSale.Yaml

/-- A character that a document may hold. -/
def isAllowed (c : Char) : Bool :=
  let n := c.toNat
  n = 0x09 ∨ n = 0x0A ∨ n = 0x0D ∨ (0x20 ≤ n ∧ n ≤ 0x7E) ∨ n = 0x85 ∨ (0xA0 ≤ n ∧ n ≤ 0xFFFD) ∨
    0x10000 ≤ n

/-- A character that ends a line. -/
def isBreak (c : Char) : Bool :=
  c == '\n' || c == '\r' || c == '\u0085' || c == '\u2028' || c == '\u2029'

/-- A space or a tab. -/
def isBlank (c : Char) : Bool := c == ' ' || c == '\t'

/-- Whether a word ends before what follows, which may be the end of the text. -/
def endsWord : Option Char → Bool
  | none => true
  | some c => isBlank c || isBreak c

/-- A character of a name. -/
def isNameChar (c : Char) : Bool :=
  c.isAlphanum || c == '_' || c == '-'

/-- A place in a text: what is still to be read, and what was passed. -/
structure Cursor where
  rest : List Char
  index : Nat
  line : Nat
  column : Nat

namespace Cursor

/-- The start of a text. -/
def start (text : List Char) : Cursor := ⟨text, 0, 0, 0⟩

/-- The character at a distance. -/
def look (c : Cursor) (n : Nat) : Option Char := c.rest[n]?

/-- Whether the next character is a given one. -/
def sees (c : Cursor) (x : Char) : Bool := c.rest.head? == some x

/-- Behind `n` characters of the same line. -/
def advance (c : Cursor) (n : Nat) : Cursor :=
  { c with rest := c.rest.drop n, index := c.index + n, column := c.column + n }

/-- Behind the characters that pass a test. -/
def skipWhile (c : Cursor) (p : Char → Bool) : Cursor :=
  c.advance (c.rest.takeWhile p).length

/-- Behind the rest of the line. -/
def skipLine (c : Cursor) : Cursor := c.skipWhile fun x => !isBreak x

/-- The line break at the cursor, as it is read, and the start of the next
line; nothing at all if there is none. -/
def takeBreak (c : Cursor) : List Char × Cursor :=
  let next (n : Nat) (rest : List Char) : Cursor := ⟨rest, c.index + n, c.line + 1, 0⟩
  match c.rest with
  | '\r' :: '\n' :: rest => (['\n'], next 2 rest)
  | x :: rest =>
    if x == '\u2028' || x == '\u2029' then ([x], next 1 rest)
    else if isBreak x then (['\n'], next 1 rest)
    else ([], c)
  | [] => ([], c)

/-- A marker of three characters alone at the start of a line. -/
def seesMarker (c : Cursor) (x : Char) : Bool :=
  c.column == 0 && c.rest.take 3 == [x, x, x] && endsWord (c.look 3)

/-- The start or the end of a document. -/
def seesDocumentMarker (c : Cursor) : Bool := c.seesMarker '-' || c.seesMarker '.'

end Cursor

/-! ## gaps within scalars -/

/-- What stands between two runs of a scalar: blanks on one line, or line
breaks, the first of which is kept apart. -/
structure Gap where
  blanks : List Char
  broken : Bool
  first : List Char
  more : List Char

namespace Gap

/-- Nothing at all. -/
def none : Gap := ⟨[], false, [], []⟩

/-- A line break that was escaped. -/
def escaped : Gap := ⟨[], true, [], []⟩

/-- What a gap reads as: blanks as they are; one line break as a blank,
several as one less. -/
def text (g : Gap) : List Char :=
  if !g.broken then g.blanks
  else if g.first = ['\n'] then (if g.more.isEmpty then [' '] else g.more)
  else g.first ++ g.more

/-- Takes in the blanks and breaks at the cursor.  A tab left of `indent` at
the start of a line is refused. -/
def take (indent : Nat) : Nat → Gap → Cursor → Option (Gap × Cursor)
  | 0, g, c => some (g, c)
  | fuel + 1, g, c =>
    match c.rest with
    | [] => some (g, c)
    | x :: _ =>
      if isBlank x then
        if g.broken && c.column < indent && x == '\t' then .none
        else if g.broken then take indent fuel g (c.advance 1)
        else take indent fuel { g with blanks := g.blanks ++ [x] } (c.advance 1)
      else if isBreak x then
        let (text, c) := c.takeBreak
        if g.broken then take indent fuel { g with more := g.more ++ text } c
        else take indent fuel { g with blanks := [], broken := true, first := text } c
      else some (g, c)

end Gap

end TokenSale.Yaml
