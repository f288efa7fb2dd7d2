import TokenSale.Command.Arguments

/-!
# TokenSale.Command.Help

The help pages of the command line.
-/

namespace TokenSale.Help

/-- How help is asked for. -/
def helpRow : String × String := ("-h, --help", "Print help")

/-- The row of the command that prints help. -/
def helpCommandRow : String × String :=
  ("help", "Print this message or the help of the given subcommand(s)")

/-- The help on the command that prints help, under a program. -/
def helpPage (program : String) : HelpPage :=
  ⟨helpCommandRow.2, program ++ " help [COMMAND]...",
    [⟨"Arguments", [("[COMMAND]...", "Print help for the subcommand(s)")]⟩]⟩

/-- The help on everything. -/
def topPage : HelpPage :=
  ⟨"Tiered token sale CLI", "sto <COMMAND>",
    [⟨"Commands",
        [("config-hash", "Compute layered config hash + print canonical JSON"),
          ("config-check", "Report config keys the chosen binary would ignore"),
          ("simulate", "Replay a purchase script against an in-memory sale"),
          ("audit", "Journal utilities"), helpCommandRow]⟩,
      ⟨"Options", [helpRow]⟩]⟩

/-- The help on `config-hash`. -/
def configHashPage : HelpPage :=
  ⟨"Compute layered config hash + print canonical JSON", "sto config-hash <PATHS>...",
    [⟨"Arguments", [("<PATHS>...", "Paths in merge order (base -> env -> overrides...)")]⟩,
      ⟨"Options", [helpRow]⟩]⟩

/-- The help on `config-check`. -/
def configCheckPage : HelpPage :=
  ⟨"Report config keys the chosen binary would ignore",
    "sto config-check [OPTIONS] <PATHS>...",
    [⟨"Arguments", [("<PATHS>...", "")]⟩,
      ⟨"Options",
        [("    --surface <SURFACE>",
            "Which consumer to check against [default: simulate] " ++
              "[possible values: simulate, daemon]"),
          ("    --strict", "Exit non-zero when any key is unused"), helpRow]⟩]⟩

/-- The help on `simulate`. -/
def simulatePage : HelpPage :=
  ⟨"Replay a purchase script against an in-memory sale",
    "sto simulate [OPTIONS] --config <CONFIG_PATHS> --purchases <PURCHASES>",
    [⟨"Options",
      [("    --config <CONFIG_PATHS>", "Layered config paths in merge order"),
        ("    --purchases <PURCHASES>",
          "JSON script: \x7b \"investors\": [...], \"purchases\": [...] \x7d"),
        ("    --journal <JOURNAL>", "Append every sale event to this hash-chained journal"),
        ("    --finalize", "Move the clock to end_time and finalize after the script"),
        ("    --json", "Print the full report as JSON instead of key=value lines"),
        helpRow]⟩]⟩

/-- The help on `audit`. -/
def auditPage : HelpPage :=
  ⟨"Journal utilities", "sto audit <COMMAND>",
    [⟨"Commands",
        [("verify", "Walk a journal's hash chain. Exits non-zero when it is broken"),
          helpCommandRow]⟩,
      ⟨"Options", [helpRow]⟩]⟩

/-- The help on `audit verify`. -/
def verifyPage : HelpPage :=
  ⟨"Walk a journal's hash chain. Exits non-zero when it is broken",
    "sto audit verify <PATH>",
    [⟨"Arguments", [("<PATH>", "")]⟩, ⟨"Options", [helpRow]⟩]⟩

end TokenSale.Help
