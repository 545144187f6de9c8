import DocTree.CommandLine.Invocation
import DocTree.Config.Error
import DocTree.Error
import DocTree.Files
import DocTree.Log

/-!
How a run of the program ends: well or with the reason why it fails, which give the exit status and
lines for the standard error, and with what it has printed.
-/

namespace DocTree

namespace CommandLine.Refusal

def usage : String :=
  "Usage: adoc-json [OPTIONS] [convert|data|help] <input>\n\n" ++
  "  --list-backends       List available backends\n" ++
  "  --config <PATH>       Path to an adoc-json.toml configuration file\n" ++
  "  -v, --verbose         Log conversion details to stderr\n" ++
  "  --to <BACKEND>        Target backend (defaults to the configured backend)\n" ++
  "  --flat                Replace preamble and section wrappers by their children\n" ++
  "  --no-asciidoc-data    Leave out the AsciiDoc name and context fields\n" ++
  "  --compact             Write single-line JSON\n" ++
  "  -o, --output <PATH>   Output file path (defaults to stdout)"

def version : String := "adoc-json 0.1.0"

def message : Refusal → String
  | .helpWanted | .nothingGiven => usage
  | .versionWanted => version
  | .unknownCommand => "error: unrecognized subcommand"
  | .unknownWord => "error: unexpected argument"
  | .missingInput => "error: the input is missing"
  | .missingValue => "error: an option has no value"
  | .repeated => "error: an argument is used more than once"
  | .unwantedValue => "error: a flag has a value"

def isWanted : Refusal → Bool
  | .helpWanted | .versionWanted => true
  | _ => false

end CommandLine.Refusal

namespace Program

inductive Failure where
  | refused (reason : CommandLine.Refusal)
  | configuration (e : Config.ConfigError)
  | noCommand
  | conversion (e : ConvertError)
  | unreadable (input : String) (fault : FileFault)
  | unwritable (output : String) (fault : FileFault)

/-- The input that stands for the standard input. -/
def standardInput : String := "-"

def Failure.message : Failure → String
  | .refused reason => reason.message
  | .configuration e => "Failed to load configuration: " ++ e.message
  | .noCommand => "Unknown subcommand. Use --help for usage information."
  | .conversion e => "Error: " ++ e.message
  | .unreadable input fault =>
    (if input = standardInput then "Error reading stdin: "
      else "Error reading file '" ++ input ++ "': ") ++ fault.message
  | .unwritable output fault => "Error writing file '" ++ output ++ "': " ++ fault.message

def Failure.code : Failure → Nat
  | .refused _ => 2
  | .configuration _ | .noCommand | .conversion _ | .unreadable _ _ | .unwritable _ _ => 1

structure Report where
  failure : Option Failure := none
  /-- Lines for the standard error that come before all others. -/
  complaints : List String := []
  logs : List LogRecord := []

namespace Report

def code (r : Report) : Nat := r.failure.elim 0 Failure.code

/-- The lines on the standard error but for log records. -/
def stderr (r : Report) : List String :=
  r.complaints ++ r.failure.elim [] fun failure => Text.split '\n' failure.message

end Report

structure Outcome extends Report where
  /-- What was printed to the standard output, from the first text to the last. -/
  stdout : String

end Program

end DocTree
