import TokenSale.Json.Basic

/-!
# TokenSale.Json.Pointer

Paths into documents and their written form (RFC 6901): every step has a
slash before it, with `~1` for a slash and `~0` for a tilde within a step.

* `at?` — what stands at a path;
* `pointer?` — what stands at a written path;
* `leaves` — the written paths of everything that is neither an array nor an
  object, in order.
-/

namespace TokenSale.Json

/-- A step with its tildes and slashes escaped. -/
def escapeStep (cs : List Char) : List Char :=
  cs.flatMap fun c => if c = '~' then ['~', '0'] else if c = '/' then ['~', '1'] else [c]

/-- Text with every `~` before `digit` taken for `c`. -/
def replaceEscape (digit c : Char) : List Char → List Char
  | a :: b :: rest =>
    if a = '~' ∧ b = digit then c :: replaceEscape digit c rest
    else a :: replaceEscape digit c (b :: rest)
  | cs => cs

/-- A written step without its escapes: slashes first, then tildes. -/
def unescapeStep (cs : List Char) : List Char :=
  replaceEscape '0' '~' (replaceEscape '1' '/' cs)

/-- The parts of a text between slashes. -/
def splitSteps : List Char → List (List Char)
  | [] => [[]]
  | c :: rest =>
    if c = '/' then [] :: splitSteps rest
    else
      match splitSteps rest with
      | [] => [[c]]
      | first :: more => (c :: first) :: more

/-- The written form of a path. -/
def pathText (path : List String) : String :=
  String.ofList (path.flatMap fun s => '/' :: escapeStep s.toList)

/-- The path that a text spells: nothing at all, or steps with slashes before
them. -/
def pathOfText? (s : String) : Option (List String) :=
  match s.toList with
  | [] => some []
  | c :: rest =>
    if c = '/' then some ((splitSteps rest).map fun cs => String.ofList (unescapeStep cs))
    else none

/-- The place in an array that a step spells: a number without leading zeros. -/
def indexOfStep? (s : String) : Option Nat :=
  let cs := s.toList
  if cs.isEmpty ∨ !cs.all Char.isDigit ∨ (cs.head? = some '0' ∧ 1 < cs.length) then none
  else some (Nat.ofDigitChars 10 cs 0)

/-- What is one step below a document. -/
def step? (v : Json) (s : String) : Option Json :=
  match v with
  | obj members => Directory.find s members
  | arr items => (indexOfStep? s).bind fun i => items[i]?
  | _ => none

/-- What stands at a path. -/
def at? (v : Json) : List String → Option Json
  | [] => some v
  | s :: rest => (v.step? s).bind fun w => w.at? rest

/-- What stands at a written path. -/
def pointer? (v : Json) (s : String) : Option Json := (pathOfText? s).bind v.at?

/-! ## leaves -/

mutual

/-- The paths of the leaves of a document, each with the leaf. -/
def leafPaths (path : List String) : Json → List (List String × Json)
  | arr items => leafPathsOfItems path 0 items
  | obj members => leafPathsOfMembers path members
  | v => [(path, v)]

/-- The same for the items of an array, the first of which has the index `i`. -/
def leafPathsOfItems (path : List String) (i : Nat) : List Json → List (List String × Json)
  | [] => []
  | v :: rest => leafPaths (path ++ [toString i]) v ++ leafPathsOfItems path (i + 1) rest

/-- The same for the members of an object. -/
def leafPathsOfMembers (path : List String) :
    List (String × Json) → List (List String × Json)
  | [] => []
  | (k, v) :: rest => leafPaths (path ++ [k]) v ++ leafPathsOfMembers path rest

end

/-- The written path of a leaf; a leaf that is the whole document goes by a
single slash. -/
def leafText (path : List String) : String := if path.isEmpty then "/" else pathText path

/-- The written paths of all leaves in order. -/
def leaves (v : Json) : List String := (v.leafPaths []).map fun p => leafText p.1

end TokenSale.Json
