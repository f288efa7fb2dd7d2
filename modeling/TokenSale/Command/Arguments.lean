/-!
# TokenSale.Command.Arguments

The arguments of a command: options and words in any order.  An option starts
with `--`; its value follows it, as the next argument or behind `=`.  Behind a
lone `--` there are only words.

* `HelpPage.text` — the help on a command;
* `Arguments.scan` — the options and words of a list of arguments.
-/

namespace TokenSale

/-- A part of a help page: what can be written, and what it does. -/
structure HelpSection where
  title : String
  rows : List (String × String)

/-- The help on a command. -/
structure HelpPage where
  about : String
  usage : String
  sections : List HelpSection

/-- A text filled up with blanks to a width. -/
def HelpSection.pad (width : Nat) (s : String) : String :=
  s ++ String.ofList (List.replicate (width - s.length) ' ')

/-- The lines of a part; what things do stands in one column. -/
def HelpSection.lines (s : HelpSection) : List String :=
  let width := s.rows.foldl (fun n row => max n row.1.length) 0
  ["", s.title ++ ":"] ++ s.rows.map fun row => "  " ++ pad width row.1 ++ "  " ++ row.2

/-- A help page as text. -/
def HelpPage.text (p : HelpPage) : String :=
  String.join (([p.about, "", "Usage: " ++ p.usage] ++ p.sections.flatMap HelpSection.lines).map
    fun l => l ++ "\n")

/-- Why there is nothing to run. -/
inductive Stop where
  /-- Help was asked for. -/
  | help (page : HelpPage)
  | misuse

/-- An option that a command knows. -/
structure OptionSpec where
  name : String
  /-- Which values it accepts; a flag has no value. -/
  accepts : Option (String → Bool)
  /-- Whether it may be given more than once. -/
  repeatable : Bool

namespace OptionSpec

/-- An option without a value. -/
def flag (name : String) : OptionSpec := ⟨name, none, false⟩

/-- An option with any value. -/
def text (name : String) : OptionSpec := ⟨name, some fun _ => true, false⟩

/-- An option whose value is a path. -/
def path (name : String) : OptionSpec := ⟨name, some fun v => v != "", false⟩

/-- An option whose value is one of several names. -/
def choice (name : String) (names : List String) : OptionSpec :=
  ⟨name, some fun v => names.contains v, false⟩

/-- The same, given any number of times. -/
def many (o : OptionSpec) : OptionSpec := { o with repeatable := true }

end OptionSpec

/-- What a command accepts. -/
structure ArgumentSpec where
  page : HelpPage
  options : List OptionSpec
  /-- Whether it accepts a word behind that many others. -/
  acceptsWord : Nat → String → Bool

/-- The options with their values, and the words, in order. -/
structure Arguments where
  options : List (String × String)
  words : List String
  deriving DecidableEq

namespace Arguments

/-- No arguments. -/
def empty : Arguments := ⟨[], []⟩

/-- Whether an argument can stand for itself: it does not look like an option. -/
def isWord (arg : String) : Bool :=
  match arg.toList with
  | '-' :: _ :: _ => false
  | _ => true

/-- The name of an option and the value behind `=`, if there is one. -/
def splitOption (cs : List Char) : String × Option String :=
  match cs.dropWhile (· != '=') with
  | [] => (String.ofList cs, none)
  | _ :: value => (String.ofList (cs.takeWhile (· != '=')), some (String.ofList value))

/-- One more word. -/
def addWord (spec : ArgumentSpec) (a : Arguments) (w : String) : Except Stop Arguments :=
  if spec.acceptsWord a.words.length w then .ok { a with words := a.words ++ [w] }
  else .error .misuse

/-- One more option. -/
def addOption (a : Arguments) (o : OptionSpec) (value : String) : Except Stop Arguments :=
  if !o.repeatable && a.options.any (fun p => p.1 == o.name) then .error .misuse
  else if (o.accepts.map fun accepts => accepts value).getD true then
    .ok { a with options := a.options ++ [(o.name, value)] }
  else .error .misuse

/-- Reads arguments behind those that were read already. -/
def scanFrom (spec : ArgumentSpec) (a : Arguments) : List String → Except Stop Arguments
  | [] => .ok a
  | arg :: rest =>
    match arg.toList with
    | ['-', '-'] => rest.foldlM (addWord spec) a
    | '-' :: '-' :: cs =>
      let (name, attached) := splitOption cs
      if name = "help" then .error (if attached.isNone then .help spec.page else .misuse)
      else
        match spec.options.find? fun o => o.name = name with
        | none => .error .misuse
        | some o =>
          match o.accepts, attached, rest with
          | none, none, rest => (a.addOption o "").bind fun a => scanFrom spec a rest
          | some _, some value, rest => (a.addOption o value).bind fun a => scanFrom spec a rest
          | some _, none, value :: rest =>
            if isWord value then (a.addOption o value).bind fun a => scanFrom spec a rest
            else .error .misuse
          | _, _, _ => .error .misuse
    | '-' :: 'h' :: _ => .error (.help spec.page)
    | '-' :: _ :: _ => .error .misuse
    | _ => (a.addWord spec arg).bind fun a => scanFrom spec a rest
termination_by args => args.length

/-- Reads all arguments. -/
def scan (spec : ArgumentSpec) (args : List String) : Except Stop Arguments :=
  scanFrom spec .empty args

/-- All values of an option. -/
def values (a : Arguments) (name : String) : List String :=
  (a.options.filter fun p => p.1 == name).map Prod.snd

/-- The value of an option. -/
def value? (a : Arguments) (name : String) : Option String := (a.values name).head?

/-- Whether a flag was given. -/
def has (a : Arguments) (name : String) : Bool := !(a.values name).isEmpty

end Arguments

end TokenSale
