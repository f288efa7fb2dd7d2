import TokenSale.Binary64.Shortest
import TokenSale.Json.Basic
import TokenSale.Text.Hex
import TokenSale.Yaml.Node

/-!
# TokenSale.Yaml.Value

What the nodes of a document mean.  A plain scalar is null, a boolean, an
integer, a number or, if it is none of these, a string; a scalar in quotes is
a string.  Keys of a mapping are distinct.

* `plainValue?` — the meaning of a plain scalar;
* `Value.ofNode?` — the meaning of a tree;
* `Value.toJson?` — the same as JSON: keys become texts, what is not finite
  becomes null, and a local tag becomes the only key of an object.
-/

namespace TokenSale.Yaml

/-- What is not finite. -/
inductive Unbounded where
  | infinity
  | minusInfinity
  | notANumber
  deriving DecidableEq

/-- The meaning of a node. -/
inductive Value where
  | null
  | bool (b : Bool)
  | int (n : Int)
  | float (x : Binary64)
  | unbounded (u : Unbounded)
  | str (s : String)
  | seq (items : List Value)
  | map (entries : List (Value × Value))
  /-- A value under a tag of the document's own. -/
  | tagged (name : String) (v : Value)

namespace Value

/-! ## plain scalars -/

/-- The text behind a sign. -/
def afterSign : List Char → List Char
  | '+' :: rest | '-' :: rest => rest
  | cs => cs

/-- A zero with further digits is text: numbers have no leading zeros. -/
def hasLeadingZero (cs : List Char) : Bool :=
  match afterSign cs with
  | '0' :: rest => !rest.isEmpty && rest.all Char.isDigit
  | _ => false

/-- The number that digits of a base spell. -/
def natOf? (base : Nat) (cs : List Char) : Option Nat :=
  if cs.isEmpty then none
  else cs.foldlM (fun n c => do
    let d ← TokenSale.Text.hexValue? c
    if d < base then some (base * n + d) else none) 0

/-- The base of a mark behind a zero. -/
def baseOf? (c : Char) : Option Nat :=
  if c = 'x' then some 16 else if c = 'o' then some 8 else if c = 'b' then some 2 else none

/-- An integer of any size; other bases than ten are marked. -/
def integer? (cs : List Char) : Option Int := do
  let negative := cs.head? == some '-'
  let digits := afterSign cs
  let n ←
    match digits with
    | '0' :: mark :: rest =>
      match baseOf? mark with
      | some base => natOf? base rest
      | none => if hasLeadingZero cs then none else natOf? 10 digits
    | _ => natOf? 10 digits
  return if negative then -n else n

/-- A decimal number: digits on at least one side of a point, and perhaps an
exponent.  The significand, the power of ten that it counts. -/
def decimal? (cs : List Char) : Option (Nat × Int) := do
  let whole := cs.takeWhile Char.isDigit
  let cs := cs.drop whole.length
  let fraction := if cs.head? = some '.' then (cs.drop 1).takeWhile Char.isDigit else []
  let cs := if cs.head? = some '.' then cs.drop (1 + fraction.length) else cs
  let digits := whole ++ fraction
  if digits.isEmpty then none
  else
    let exponent : Int ←
      match cs with
      | [] => some 0
      | e :: rest =>
        if e = 'e' ∨ e = 'E' then
          (natOf? 10 (afterSign rest)).map fun n => if rest.head? = some '-' then -(n : Int) else n
        else none
    return (Nat.ofDigitChars 10 digits 0, exponent - fraction.length)

/-- The number nearest to `n · 10 ^ e`.  A text has far fewer digits than the
exponents that are cut off here, so these are out of range either way. -/
def nearest? (negative : Bool) (n : Nat) (e : Int) : Option Binary64 :=
  if n = 0 then some (.zero negative)
  else
    let size : Int := (Nat.toDigits 10 n).length
    if e + size < -400 then some (.zero negative)
    else if 400 < e + size then none
    else Binary64.ofDecimal? negative n e

/-- A number that is not finite. -/
def unbounded? (cs : List Char) : Option Unbounded :=
  let positive := match cs with
    | '+' :: rest => rest
    | cs => cs
  if [".inf", ".Inf", ".INF"].contains (String.ofList positive) then some .infinity
  else if ["-.inf", "-.Inf", "-.INF"].contains (String.ofList cs) then some .minusInfinity
  else if [".nan", ".NaN", ".NAN"].contains (String.ofList cs) then some .notANumber
  else none

/-- A number that is written as one, finite or not. -/
def number? (cs : List Char) : Option Value :=
  match unbounded? cs with
  | some u => some (unbounded u)
  | none => do
    let (n, e) ← decimal? (afterSign cs)
    return float (← nearest? (cs.head? == some '-') n e)

/-- Null in one of its spellings. -/
def isNullText (s : String) : Bool := ["null", "Null", "NULL", "~"].contains s

/-- A boolean in one of its spellings. -/
def boolOfText? (s : String) : Option Bool :=
  if ["true", "True", "TRUE"].contains s then some true
  else if ["false", "False", "FALSE"].contains s then some false
  else none

/-- An integer as a value; one that needs more than 64 bits but fits in 128
is refused. -/
def ofInteger? (n : Int) : Option Value :=
  if -(Nat.pow 2 63 : Int) ≤ n ∧ n < Nat.pow 2 64 then some (int n) else none

/-- An integer that fits in 128 bits. -/
def wideInteger? (cs : List Char) : Option Int :=
  (integer? cs).filter fun n => -(Nat.pow 2 127 : Int) ≤ n ∧ n < Nat.pow 2 128

/-- The meaning of a plain scalar. -/
def ofPlain? (s : String) : Option Value :=
  let cs := s.toList
  if s.isEmpty || isNullText s then some null
  else
    match boolOfText? s with
    | some b => some (bool b)
    | none =>
      match wideInteger? cs with
      | some n => ofInteger? n
      | none =>
        match if hasLeadingZero cs then none else number? cs with
        | some v => some v
        | none => some (str s)

/-! ## trees -/

/-- The meaning of a scalar under a tag of the standard. -/
def ofStandardTag? (tag : String) (s : String) : Option Value :=
  if tag = "tag:yaml.org,2002:bool" then (boolOfText? s).map bool
  else if tag = "tag:yaml.org,2002:int" then (wideInteger? s.toList).bind ofInteger?
  else if tag = "tag:yaml.org,2002:float" then number? s.toList
  else if tag = "tag:yaml.org,2002:null" then if isNullText s then some null else none
  else some (str s)

/-- The name of a tag of the document's own; a lone mark is its own name. -/
def localName? (tag : String) : Option String :=
  match tag.toList with
  | ['!'] => some "!"
  | '!' :: name => some (String.ofList name)
  | _ => none

mutual

/-- Whether two values are the same key. -/
def same : Value → Value → Bool
  | null, null => true
  | bool a, bool b => a == b
  | int a, int b => a == b
  | float a, float b => a == b || (a.isZero && b.isZero)
  | unbounded a, unbounded b => a == b
  | str a, str b => a == b
  | seq a, seq b => sameItems a b
  | map a, map b => a.length == b.length && sameEntries a b
  | tagged a v, tagged b w => a == b && same v w
  | _, _ => false

/-- Whether two lists hold the same values in order. -/
def sameItems : List Value → List Value → Bool
  | [], [] => true
  | v :: rest, w :: more => same v w && sameItems rest more
  | _, _ => false

/-- Whether every entry is among others. -/
def sameEntries : List (Value × Value) → List (Value × Value) → Bool
  | [], _ => true
  | (k, v) :: rest, others =>
    (others.any fun p => same k p.1 && same v p.2) && sameEntries rest others

end

/-- A value under the tag of its node, if that is one of the document's own. -/
def underTag (tag : Option String) (v : Value) : Value :=
  match tag.bind localName? with
  | none => v
  | some name => tagged name v

mutual

/-- The meaning of a node; nothing if a scalar does not fit its tag or a key
is repeated. -/
def ofNode? : Node → Option Value
  | .scalar tag style text => do
    let own := tag.bind localName?
    let v ←
      match tag.filter fun _ => own.isNone with
      | some tag => ofStandardTag? tag text
      | none => if style = .plain then ofPlain? text else some (str text)
    return underTag tag v
  | .sequence tag items => do return underTag tag (seq (← ofItems? items))
  | .mapping tag entries => do return underTag tag (map (← ofEntries? [] entries))

/-- The meanings of items. -/
def ofItems? : List Node → Option (List Value)
  | [] => some []
  | n :: rest => do return (← ofNode? n) :: (← ofItems? rest)

/-- The meanings of entries, whose keys are not among those before. -/
def ofEntries? (seen : List Value) : List (Node × Node) → Option (List (Value × Value))
  | [] => some []
  | (k, v) :: rest => do
    let k ← ofNode? k
    if seen.any (same k) then none
    else return (k, ← ofNode? v) :: (← ofEntries? (k :: seen) rest)

end

/-! ## as JSON -/

/-- The text of a key; null and collections have none. -/
def keyText? : Value → Option String
  | bool b => some (if b then "true" else "false")
  | int n => some (toString n)
  | float x => some (String.ofList x.chars)
  | str s => some s
  | _ => none

mutual

/-- The value as a JSON document; nothing if a key has no text. -/
def toJson? : Value → Option Json
  | null => some .null
  | bool b => some (.bool b)
  | int n => some (.int n)
  | float x => some (.float x)
  | unbounded _ => some .null
  | str s => some (.str s)
  | seq items => do return .arr (← itemsToJson? items)
  | map entries => do return .obj (← entriesToJson? entries)
  | tagged name v => do return .obj [("!" ++ name, ← toJson? v)]

/-- The items as JSON documents. -/
def itemsToJson? : List Value → Option (List Json)
  | [] => some []
  | v :: rest => do return (← toJson? v) :: (← itemsToJson? rest)

/-- The entries as members of an object. -/
def entriesToJson? : List (Value × Value) → Option (List (String × Json))
  | [] => some []
  | (k, v) :: rest => do
    return (← keyText? k, ← toJson? v) :: (← entriesToJson? rest)

end

end Value

end TokenSale.Yaml
