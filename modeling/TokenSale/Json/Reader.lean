import TokenSale.Json.Number
import TokenSale.Text.Hex

/-!
# TokenSale.Json.Reader

The reading of documents.  A reader takes a document off the front of a text
and returns the rest of it; nesting is read up to a fixed depth.

* `readPrefix?` — one document at the front;
* `ofText?` — a whole text, with the members of objects as they stand;
* `parse?` — a whole text as a settled document.
-/

namespace TokenSale.Json

/-- Nesting beyond this depth is refused. -/
def maxDepth : Nat := 127

/-- Blanks between tokens. -/
def isGap (c : Char) : Bool := c == ' ' || c == '\n' || c == '\t' || c == '\r'

/-- The text behind the blanks at its front. -/
def skipGap (cs : List Char) : List Char := cs.dropWhile isGap

/-- The text behind a fixed word at its front. -/
def takeWord (word cs : List Char) : Option (List Char) :=
  if word.isPrefixOf cs then some (cs.drop word.length) else none

/-! ## strings -/

/-- The value of four hex digits. -/
def hexCode? (a b c d : Char) : Option Nat := Text.hexNumber? [a, b, c, d]

/-- What a character behind a backslash stands for. -/
def unescape? (c : Char) : Option Char :=
  if c = '"' then some '"'
  else if c = '\\' then some '\\'
  else if c = '/' then some '/'
  else if c = 'b' then some '\x08'
  else if c = 'f' then some '\x0c'
  else if c = 'n' then some '\n'
  else if c = 'r' then some '\r'
  else if c = 't' then some '\t'
  else none

/-- The rest of a string behind its opening quote.  Controls must be escaped,
and the halves of a surrogate pair stand together. -/
def readString : List Char → Option (List Char × List Char)
  | [] => none
  | '"' :: rest => some ([], rest)
  | '\\' :: 'u' :: a :: b :: c :: d :: rest =>
    match hexCode? a b c d with
    | none => none
    | some n =>
      if 0xD800 ≤ n ∧ n < 0xDC00 then
        match rest with
        | '\\' :: 'u' :: e :: f :: g :: h :: rest =>
          match hexCode? e f g h with
          | none => none
          | some m =>
            if 0xDC00 ≤ m ∧ m < 0xE000 then
              (readString rest).map fun p =>
                (Char.ofNat (0x10000 + (n - 0xD800) * 0x400 + (m - 0xDC00)) :: p.1, p.2)
            else none
        | _ => none
      else if 0xDC00 ≤ n ∧ n < 0xE000 then none
      else (readString rest).map fun p => (Char.ofNat n :: p.1, p.2)
  | '\\' :: c :: rest =>
    match unescape? c with
    | none => none
    | some u => (readString rest).map fun p => (u :: p.1, p.2)
  | c :: rest =>
    if c.toNat < 0x20 ∨ c = '\\' then none
    else (readString rest).map fun p => (c :: p.1, p.2)

/-! ## documents -/

mutual

/-- A document at the front of a text without leading blanks. -/
def readValue : Nat → Nat → List Char → Option (Json × List Char)
  | 0, _, _ => none
  | fuel + 1, depth, cs =>
    match cs with
    | [] => none
    | 'n' :: _ => (takeWord "null".toList cs).map fun rest => (null, rest)
    | 't' :: _ => (takeWord "true".toList cs).map fun rest => (bool true, rest)
    | 'f' :: _ => (takeWord "false".toList cs).map fun rest => (bool false, rest)
    | '"' :: rest => (readString rest).map fun p => (str (String.ofList p.1), p.2)
    | '[' :: rest =>
      match depth with
      | 0 => none
      | depth + 1 =>
        match skipGap rest with
        | ']' :: rest => some (arr [], rest)
        | rest => (readItems fuel depth rest).map fun p => (arr p.1, p.2)
    | '\x7b' :: rest =>
      match depth with
      | 0 => none
      | depth + 1 =>
        match skipGap rest with
        | '\x7d' :: rest => some (obj [], rest)
        | rest => (readMembers fuel depth rest).map fun p => (obj p.1, p.2)
    | cs => readNumber cs

/-- The items of an array up to its closing bracket. -/
def readItems : Nat → Nat → List Char → Option (List Json × List Char)
  | 0, _, _ => none
  | fuel + 1, depth, cs =>
    match readValue fuel depth cs with
    | none => none
    | some (v, rest) =>
      match skipGap rest with
      | ',' :: rest => (readItems fuel depth (skipGap rest)).map fun p => (v :: p.1, p.2)
      | ']' :: rest => some ([v], rest)
      | _ => none

/-- The members of an object up to its closing brace. -/
def readMembers : Nat → Nat → List Char → Option (List (String × Json) × List Char)
  | 0, _, _ => none
  | fuel + 1, depth, cs =>
    match cs with
    | '"' :: rest =>
      match readString rest with
      | none => none
      | some (k, rest) =>
        match skipGap rest with
        | ':' :: rest =>
          match readValue fuel depth (skipGap rest) with
          | none => none
          | some (v, rest) =>
            match skipGap rest with
            | ',' :: rest =>
              (readMembers fuel depth (skipGap rest)).map fun p =>
                ((String.ofList k, v) :: p.1, p.2)
            | '\x7d' :: rest => some ([(String.ofList k, v)], rest)
            | _ => none
        | _ => none
    | _ => none

end

/-- Enough fuel for any document in a text: at most two steps a character. -/
def readerFuel (cs : List Char) : Nat := 2 * cs.length + 2

/-- One document at the front of a text, and the rest. -/
def readPrefix? (cs : List Char) : Option (Json × List Char) :=
  readValue (readerFuel cs) maxDepth (skipGap cs)

/-- The document that makes up a whole text, blanks aside. -/
def ofChars? (cs : List Char) : Option Json :=
  match readPrefix? cs with
  | some (v, rest) => if (skipGap rest).isEmpty then some v else none
  | none => none

/-- `ofChars?` on strings. -/
def ofText? (s : String) : Option Json := ofChars? s.toList

/-- The settled document that makes up a whole text. -/
def parse? (s : String) : Option Json := (ofText? s).map settled

/-! ## broken texts -/

/-- The members that can be read off the front of an object before its text
breaks.  A member whose value opens an array or an object that breaks is
included as an empty one. -/
def membersBeforeBreak : Nat → List Char → List (String × Json)
  | 0, _ => []
  | fuel + 1, cs =>
    match cs with
    | '"' :: rest =>
      match readString rest with
      | none => []
      | some (k, rest) =>
        match skipGap rest with
        | ':' :: rest =>
          let rest := skipGap rest
          match readValue (readerFuel rest) (maxDepth - 1) rest with
          | some (v, rest) =>
            match skipGap rest with
            | ',' :: rest => (String.ofList k, v) :: membersBeforeBreak fuel (skipGap rest)
            | _ => [(String.ofList k, v)]
          | none =>
            match rest with
            | '[' :: _ => [(String.ofList k, arr [])]
            | '\x7b' :: _ => [(String.ofList k, obj [])]
            | _ => []
        | _ => []
    | _ => []

/-- What can be read of an object whose text breaks off or goes wrong. -/
def beforeBreak? (cs : List Char) : Option Json :=
  match skipGap cs with
  | '\x7b' :: rest => some (obj (membersBeforeBreak rest.length (skipGap rest)))
  | _ => none

end TokenSale.Json
