import SagaEngine.CommandLine.Arguments

/-! How to call the program, for those who ask and for those who call it wrongly. -/

namespace SagaEngine.CommandLine

def usage : String := String.intercalate "\n" [
  "Choreo - session execution engine diagnostics",
  "",
  "Usage: choreo [OPTIONS] <COMMAND>",
  "",
  "Commands:",
  "  config  Print the effective configuration as TOML",
  "  saga    Run the checkout saga on a live scheduler; with --decline the payment is declined",
  "  help    Print this message",
  "",
  "Options:",
  "      --config <CONFIG>  Path to config file (overrides default search)",
  "  -h, --help             Print help"]

namespace Refusal

def reason : Refusal → String
  | .help => "help was asked for"
  | .nothingGiven => "nothing was asked for"
  | .missingCommand => "a command is required"
  | .unknownCommand => "unrecognized command"
  | .unknownArgument => "unexpected argument"
  | .missingValue => "a value is required for '--config <CONFIG>'"
  | .surplusValue => "unexpected value for an option that takes none"
  | .repeated => "an option cannot be used multiple times"

def message (r : Refusal) : String :=
  if r = .help ∨ r = .nothingGiven then usage else "error: " ++ r.reason ++ "\n\n" ++ usage

end Refusal

end SagaEngine.CommandLine
