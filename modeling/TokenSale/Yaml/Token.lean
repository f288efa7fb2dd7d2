/-!
# TokenSale.Yaml.Token

The tokens of a YAML document.  Where a block collection starts and ends
follows from the indentation; the tokens tell it.
-/

namespace TokenSale.Yaml

/-- How a scalar is written. -/
inductive ScalarStyle where
  | plain
  /-- In quotes, or as a block. -/
  | marked
  deriving DecidableEq

/-- A tag as it is written: a handle that stands for a prefix, and a suffix. -/
structure TagName where
  handle : List Char
  suffix : List Char
  deriving DecidableEq

/-- One token. -/
inductive Token where
  | version (major minor : Nat)
  | tagPrefix (handle text : List Char)
  | documentStart
  | documentEnd
  | blockSequence
  | blockMapping
  | blockEnd
  | openBracket
  | closeBracket
  | openBrace
  | closeBrace
  /-- The start of an entry of a block sequence. -/
  | dash
  /-- The end of an entry of a flow collection. -/
  | comma
  | key
  | value
  | alias (name : List Char)
  | anchor (name : List Char)
  | tag (name : TagName)
  | scalar (style : ScalarStyle) (text : List Char)
  deriving DecidableEq

end TokenSale.Yaml
