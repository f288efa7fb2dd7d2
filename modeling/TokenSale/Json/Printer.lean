import TokenSale.Json.Basic
import TokenSale.Binary64.Shortest

/-!
# TokenSale.Json.Printer

The written forms of a document.

* `compact` — no blanks, members in the order they stand in;
* `canonical` — compact with the members of every object in key order, so
  that equal documents have equal texts;
* `pretty` — indented by two blanks, for people.
-/

namespace TokenSale.Json

/-- One character within a string. -/
def escapeChar (c : Char) : List Char :=
  if c = '"' then ['\\', '"']
  else if c = '\\' then ['\\', '\\']
  else if c = '\x08' then ['\\', 'b']
  else if c = '\x0c' then ['\\', 'f']
  else if c = '\n' then ['\\', 'n']
  else if c = '\r' then ['\\', 'r']
  else if c = '\t' then ['\\', 't']
  else if c.toNat < 0x20 then
    ['\\', 'u', '0', '0', Nat.digitChar (c.toNat / 16), Nat.digitChar (c.toNat % 16)]
  else [c]

/-- A string in its quotes. -/
def stringChars (s : String) : List Char := '"' :: s.toList.flatMap escapeChar ++ ['"']

/-- An integer in decimal. -/
def intChars (n : Int) : List Char :=
  if n < 0 then '-' :: Nat.toDigits 10 n.natAbs else Nat.toDigits 10 n.natAbs

mutual

/-- Writes a document in front of `rest`. -/
def write : Json → List Char → List Char
  | null, rest => "null".toList ++ rest
  | bool true, rest => "true".toList ++ rest
  | bool false, rest => "false".toList ++ rest
  | int n, rest => intChars n ++ rest
  | float x, rest => x.chars ++ rest
  | str s, rest => stringChars s ++ rest
  | arr items, rest => '[' :: writeItems items (']' :: rest)
  | obj members, rest => '\x7b' :: writeMembers members ('\x7d' :: rest)

/-- Writes items with commas between them. -/
def writeItems : List Json → List Char → List Char
  | [], rest => rest
  | [v], rest => write v rest
  | v :: w :: more, rest => write v (',' :: writeItems (w :: more) rest)

/-- Writes members with commas between them. -/
def writeMembers : List (String × Json) → List Char → List Char
  | [], rest => rest
  | [(k, v)], rest => stringChars k ++ ':' :: write v rest
  | (k, v) :: m :: more, rest =>
    stringChars k ++ ':' :: write v (',' :: writeMembers (m :: more) rest)

end

/-- The compact text. -/
def compact (v : Json) : String := String.ofList (write v [])

/-- The compact text with keys in order at every depth. -/
def canonical (v : Json) : String := compact v.settled

/-! ## for people -/

/-- A line break and the indentation of a depth. -/
def lineBreak (depth : Nat) : List Char := '\n' :: List.replicate (2 * depth) ' '

mutual

/-- Writes a document at a depth in front of `rest`. -/
def writePretty (depth : Nat) : Json → List Char → List Char
  | arr [], rest => "[]".toList ++ rest
  | obj [], rest => '\x7b' :: '\x7d' :: rest
  | arr items, rest =>
    '[' :: writePrettyItems (depth + 1) items (lineBreak depth ++ ']' :: rest)
  | obj members, rest =>
    '\x7b' :: writePrettyMembers (depth + 1) members (lineBreak depth ++ '\x7d' :: rest)
  | v, rest => write v rest

/-- Writes items, one a line. -/
def writePrettyItems (depth : Nat) : List Json → List Char → List Char
  | [], rest => rest
  | [v], rest => lineBreak depth ++ writePretty depth v rest
  | v :: w :: more, rest =>
    lineBreak depth ++ writePretty depth v (',' :: writePrettyItems depth (w :: more) rest)

/-- Writes members, one a line. -/
def writePrettyMembers (depth : Nat) : List (String × Json) → List Char → List Char
  | [], rest => rest
  | [(k, v)], rest =>
    lineBreak depth ++ stringChars k ++ ':' :: ' ' :: writePretty depth v rest
  | (k, v) :: m :: more, rest =>
    lineBreak depth ++ stringChars k ++ ':' :: ' ' ::
      writePretty depth v (',' :: writePrettyMembers depth (m :: more) rest)

end

/-- The indented text. -/
def pretty (v : Json) : String := String.ofList (writePretty 0 v [])

end TokenSale.Json
