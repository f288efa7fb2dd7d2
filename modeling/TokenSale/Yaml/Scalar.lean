import TokenSale.Text.Hex
import TokenSale.Yaml.Cursor

/-!
# TokenSale.Yaml.Scalar

The written forms of scalars.

* `plainText` — without quotes, over one or more lines;
* `quotedText` — in single quotes, where a quote is written twice, or in
  double quotes, with escapes;
* `blockText` — a literal or folded block below its header.
-/

namespace TokenSale.Yaml

/-! ## plain -/

/-- The characters of a plain scalar up to a blank, a break or an indicator;
within a flow collection a colon right before an indicator is refused. -/
def plainRun (flow : Bool) : List Char → Option (List Char)
  | [] => some []
  | x :: rest =>
    if isBlank x || isBreak x then some []
    else if flow && x == ':' && rest.head?.any ",?[]\x7b\x7d".toList.contains then none
    else if x == ':' && endsWord rest.head? then some []
    else if flow && ",[]\x7b\x7d".toList.contains x then some []
    else (plainRun flow rest).map (x :: ·)

/-- A plain scalar from the cursor on, and whether it ends behind a line
break; further lines start right of the indentation. -/
def plainText (flow : Bool) (indent : Nat) :
    Nat → Cursor → List Char → Gap → Option (List Char × Bool × Cursor)
  | 0, _, _, _ => none
  | fuel + 1, c, text, gap =>
    if c.seesDocumentMarker || c.sees '#' then some (text, gap.broken, c)
    else do
      let run ← plainRun flow c.rest
      let c := c.advance run.length
      let (text, gap) := if run.isEmpty then (text, gap) else (text ++ gap.text ++ run, .none)
      if c.rest.isEmpty || !endsWord c.rest.head? then some (text, gap.broken, c)
      else
        let (gap, c) ← Gap.take indent (c.rest.length + 1) gap c
        if !flow && c.column < indent then some (text, gap.broken, c)
        else plainText flow indent fuel c text gap

/-! ## quoted -/

/-- A run within single quotes, and how long its written form is. -/
def singleRun : List Char → List Char × Nat
  | '\'' :: '\'' :: rest => let (run, n) := singleRun rest; ('\'' :: run, n + 2)
  | x :: rest =>
    if x == '\'' || isBlank x || isBreak x then ([], 0)
    else let (run, n) := singleRun rest; (x :: run, n + 1)
  | [] => ([], 0)

/-- What an escape of one character stands for. -/
def shortEscape? (c : Char) : Option Char :=
  match c with
  | '0' => some '\x00'
  | 'a' => some '\x07'
  | 'b' => some '\x08'
  | 't' => some '\t'
  | '\t' => some '\t'
  | 'n' => some '\n'
  | 'v' => some '\x0b'
  | 'f' => some '\x0c'
  | 'r' => some '\r'
  | 'e' => some '\x1b'
  | ' ' => some ' '
  | '"' => some '"'
  | '/' => some '/'
  | '\\' => some '\\'
  | 'N' => some '\u0085'
  | '_' => some '\u00a0'
  | 'L' => some '\u2028'
  | 'P' => some '\u2029'
  | _ => none

/-- How many hex digits follow an escape. -/
def escapeDigits? (c : Char) : Option Nat :=
  if c = 'x' then some 2 else if c = 'u' then some 4 else if c = 'U' then some 8 else none

/-- The escape behind a backslash, and how long it is. -/
def escape? (cs : List Char) : Option (Char × Nat) := do
  let c ← cs.head?
  match escapeDigits? c with
  | none => return (← shortEscape? c, 1)
  | some n =>
    let ds := (cs.drop 1).take n
    let code ← Text.hexNumber? ds
    if ds.length = n ∧ code.isValidChar then return (Char.ofNat code, n + 1) else none

/-- A run within double quotes, how long its written form is, and whether it
ends at an escaped line break; `fuel` bounds its length. -/
def doubleRun : Nat → List Char → Option (List Char × Nat × Bool)
  | 0, _ => some ([], 0, false)
  | fuel + 1, cs =>
    match cs with
    | [] => some ([], 0, false)
    | '\\' :: rest =>
      if rest.head?.any isBreak then some ([], 1, true)
      else do
        let (x, n) ← escape? rest
        let (run, m, broken) ← doubleRun fuel (rest.drop n)
        return (x :: run, n + 1 + m, broken)
    | x :: rest =>
      if x == '"' || isBlank x || isBreak x then some ([], 0, false)
      else do
        let (run, m, broken) ← doubleRun fuel rest
        return (x :: run, m + 1, broken)

/-- A quoted scalar from behind its opening quote on. -/
def quotedText (quote : Char) : Nat → Cursor → List Char → Option (List Char × Cursor)
  | 0, _, _ => none
  | fuel + 1, c, text =>
    if c.seesDocumentMarker || c.rest.isEmpty then none
    else do
      let (run, n, broken) ←
        if quote == '\'' then let (run, n) := singleRun c.rest; some (run, n, false)
        else doubleRun (c.rest.length + 1) c.rest
      let c := c.advance n
      let (gap, c) := if broken then (Gap.escaped, c.takeBreak.2) else (Gap.none, c)
      if c.sees quote then some (text ++ run, c.advance 1)
      else
        let (gap, c) ← Gap.take 0 (c.rest.length + 1) gap c
        quotedText quote fuel c (text ++ run ++ gap.text)

/-! ## blocks -/

/-- What becomes of the line breaks at the end of a block. -/
inductive Chomping where
  | strip
  | clip
  | keep
  deriving DecidableEq

/-- The chomping mark at the cursor, if there is one. -/
def takeChomping (c : Cursor) : Option Chomping × Cursor :=
  if c.sees '+' then (some .keep, c.advance 1)
  else if c.sees '-' then (some .strip, c.advance 1)
  else (none, c)

/-- The indentation mark at the cursor, zero if there is none; a written zero
is refused. -/
def takeIncrement (c : Cursor) : Option (Nat × Cursor) :=
  match c.rest.head? with
  | some d =>
    if d = '0' then none
    else if d.isDigit then some (d.toNat - 48, c.advance 1)
    else some (0, c)
  | none => some (0, c)

/-- The marks behind the indicator of a block, in either order. -/
def takeBlockMarks (c : Cursor) : Option (Chomping × Nat × Cursor) := do
  match takeChomping c with
  | (some chomping, c) =>
    let (increment, c) ← takeIncrement c
    return (chomping, increment, c)
  | (none, c) =>
    let (increment, c) ← takeIncrement c
    let (chomping, c) := if increment = 0 then (none, c) else takeChomping c
    return (chomping.getD .clip, increment, c)

/-- Takes in empty lines up to the indentation, which is the widest blank
lead of theirs as long as it is not known (zero).  Returns the breaks, the
widest lead, and the cursor at the next line that is not empty. -/
def takeEmptyLines (indent : Nat) :
    Nat → Cursor → List Char → Nat → Option (List Char × Nat × Cursor)
  | 0, _, _, _ => none
  | fuel + 1, c, breaks, widest =>
    let lead := (c.rest.takeWhile (· == ' ')).length
    let c := c.advance (if indent = 0 then lead else min lead (indent - c.column))
    let widest := max widest c.column
    if (indent = 0 || c.column < indent) && c.sees '\t' then none
    else if c.rest.head?.any isBreak then
      let (text, c) := c.takeBreak
      takeEmptyLines indent fuel c (breaks ++ text) widest
    else some (breaks, widest, c)

/-- The lines of a block at its indentation.  `last` is the break of the line
before, `breaks` are those of the empty lines after it. -/
def blockLines (literal : Bool) (indent : Nat) :
    Nat → Cursor → List Char → List Char → List Char → Bool →
      Option (List Char × List Char × List Char × Cursor)
  | 0, _, _, _, _, _ => none
  | fuel + 1, c, text, last, breaks, blankBefore =>
    if c.column ≠ indent ∨ c.rest.isEmpty then some (text, last, breaks, c)
    else do
      let blank := c.rest.head?.any isBlank
      let joined :=
        if !literal && last.head? == some '\n' && !blankBefore && !blank then
          (if breaks.isEmpty then [' '] else breaks)
        else last ++ breaks
      let line := c.rest.takeWhile fun x => !isBreak x
      let (last, c) := (c.advance line.length).takeBreak
      let (breaks, _, c) ← takeEmptyLines indent (c.rest.length + 1) c [] 0
      blockLines literal indent fuel c (text ++ joined ++ line) last breaks blank

/-- A block scalar from behind its indicator on; `parent` is the column of
the collection around it. -/
def blockText (literal : Bool) (parent : Option Nat) (c : Cursor) :
    Option (List Char × Cursor) := do
  let (chomping, increment, c) ← takeBlockMarks c
  let c := c.skipWhile isBlank
  let c := if c.sees '#' then c.skipLine else c
  if !c.rest.isEmpty && !c.rest.head?.any isBreak then none
  else
    let c := c.takeBreak.2
    let given := if increment = 0 then 0 else parent.getD 0 + increment
    let (breaks, widest, c) ← takeEmptyLines given (c.rest.length + 1) c [] 0
    let least := max 1 ((parent.map (· + 1)).getD 0)
    let indent := if given = 0 then max widest least else given
    let (text, last, breaks, c) ← blockLines literal indent (c.rest.length + 1) c [] [] breaks false
    let tail := match chomping with
      | .strip => []
      | .clip => last
      | .keep => last ++ breaks
    return (text ++ tail, c)

end TokenSale.Yaml
