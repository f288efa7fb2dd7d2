import TokenSale.Text.Visible

/-!
# TokenSale.Text.Quoted

How a text is quoted in a message: in double quotes, with a backslash before
a quote or a backslash, short names for the common controls, and the hex code
of any other character that would leave no mark on the page.
-/

namespace TokenSale.Text

/-- The code of a character in lower-case hex, without leading zeros. -/
def hexCode (c : Char) : List Char := Nat.toDigits 16 c.toNat

/-- One character inside the quotes. -/
def quoteChar (c : Char) : List Char :=
  if c = '"' then ['\\', '"']
  else if c = '\\' then ['\\', '\\']
  else if c = '\n' then ['\\', 'n']
  else if c = '\r' then ['\\', 'r']
  else if c = '\t' then ['\\', 't']
  else if c = '\x00' then ['\\', '0']
  else if isVisible c then [c]
  else ['\\', 'u', '\x7b'] ++ hexCode c ++ ['\x7d']

/-- A text in quotes. -/
def quoted (s : String) : String :=
  String.ofList ('"' :: s.toList.flatMap quoteChar ++ ['"'])

/-- A text that may be absent. -/
def quotedOption : Option String → String
  | none => "None"
  | some s => "Some(" ++ quoted s ++ ")"

/-- A list of texts in brackets. -/
def quotedList (ss : List String) : String :=
  "[" ++ ", ".intercalate (ss.map quoted) ++ "]"

end TokenSale.Text
