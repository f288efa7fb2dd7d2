import TokenSale.Command.Help
import TokenSale.Setup.UnusedKeys

/-!
# TokenSale.Command.Invocation

What the command line can be told to do.

* `Invocation.ofArguments` — what a list of arguments says.
-/

namespace TokenSale

/-- A command with what it works on. -/
inductive Invocation where
  /-- Prints a configuration and its hash. -/
  | configHash (config : List String)
  /-- Prints what a surface does not read of a configuration. -/
  | configCheck (surface : Surface) (strict : Bool) (config : List String)
  /-- Plays a script. -/
  | simulate (config : List String) (purchases : String) (journal : Option String)
      (finalize json : Bool)
  /-- Walks the chain of a journal. -/
  | auditVerify (path : String)
  deriving DecidableEq

namespace Invocation

/-- What a result amounts to; its absence is misuse. -/
def need {α : Type} : Option α → Except Stop α
  | some a => .ok a
  | none => .error .misuse

/-- A list that must not be empty. -/
def atLeastOne (l : List String) : Except Stop (List String) :=
  if l.isEmpty then .error .misuse else .ok l

/-- The arguments of `config-hash`. -/
def configHashSpec : ArgumentSpec := ⟨Help.configHashPage, [], fun _ _ => true⟩

/-- The arguments of `config-check`. -/
def configCheckSpec : ArgumentSpec :=
  ⟨Help.configCheckPage,
    [.choice "surface" ([Surface.simulate, .daemon].map Surface.name), .flag "strict"],
    fun _ _ => true⟩

/-- The arguments of `simulate`. -/
def simulateSpec : ArgumentSpec :=
  ⟨Help.simulatePage,
    [(OptionSpec.text "config").many, .path "purchases", .path "journal", .flag "finalize",
      .flag "json"], fun _ _ => false⟩

/-- The arguments of `audit verify`. -/
def verifySpec : ArgumentSpec := ⟨Help.verifyPage, [], fun n w => n == 0 && w != ""⟩

/-- The command `config-hash`. -/
def ofConfigHash (args : List String) : Except Stop Invocation := do
  let a ← Arguments.scan configHashSpec args
  return .configHash (← atLeastOne a.words)

/-- The command `config-check`; without a surface it is `simulate`. -/
def ofConfigCheck (args : List String) : Except Stop Invocation := do
  let a ← Arguments.scan configCheckSpec args
  let surface := ((a.value? "surface").bind Surface.ofName?).getD .simulate
  return .configCheck surface (a.has "strict") (← atLeastOne a.words)

/-- The command `simulate`. -/
def ofSimulate (args : List String) : Except Stop Invocation := do
  let a ← Arguments.scan simulateSpec args
  return .simulate (← atLeastOne (a.values "config")) (← need (a.value? "purchases"))
    (a.value? "journal") (a.has "finalize") (a.has "json")

/-- The command `audit verify`. -/
def ofVerify (args : List String) : Except Stop Invocation := do
  let a ← Arguments.scan verifySpec args
  return .auditVerify (← need a.words.head?)

/-- Help before any command was named, or no use of commands at all. -/
def ofOption (page : HelpPage) (arg : String) : Stop :=
  match arg.toList with
  | '-' :: 'h' :: _ => .help page
  | _ => if arg = "--help" then .help page else .misuse

/-- The help on a command below `audit`. -/
def auditHelp : List String → Stop
  | [] => .help Help.auditPage
  | ["verify"] => .help Help.verifyPage
  | ["help"] => .help (Help.helpPage "sto audit")
  | _ => .misuse

/-- The help on a command. -/
def topHelp : List String → Stop
  | [] => .help Help.topPage
  | ["config-hash"] => .help Help.configHashPage
  | ["config-check"] => .help Help.configCheckPage
  | ["simulate"] => .help Help.simulatePage
  | "audit" :: rest => auditHelp rest
  | ["help"] => .help (Help.helpPage "sto")
  | _ => .misuse

/-- A command below `audit`. -/
def ofAudit : List String → Except Stop Invocation
  | "verify" :: args => ofVerify args
  | "help" :: commands => .error (auditHelp commands)
  | arg :: _ => .error (ofOption Help.auditPage arg)
  | [] => .error .misuse

/-- What a list of arguments says. -/
def ofArguments : List String → Except Stop Invocation
  | "config-hash" :: args => ofConfigHash args
  | "config-check" :: args => ofConfigCheck args
  | "simulate" :: args => ofSimulate args
  | "audit" :: args => ofAudit args
  | "help" :: commands => .error (topHelp commands)
  | arg :: _ => .error (ofOption Help.topPage arg)
  | [] => .error .misuse

/-- The files that an invocation looks at. -/
def paths : Invocation → List String
  | configHash config => config
  | configCheck _ _ config => config
  | simulate config purchases journal _ _ => config ++ [purchases] ++ journal.toList
  | auditVerify path => [path]

end Invocation

end TokenSale
