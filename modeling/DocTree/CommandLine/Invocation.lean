import DocTree.CommandLine.Switch
import DocTree.Config.Settings

/-!
What a command line asks for.
-/

namespace DocTree.CommandLine

structure Request where
  command : Command
  input : String
  backend : Option String
  output : Option String
  flat : Bool
  noAsciiDocData : Bool
  compact : Bool
  deriving DecidableEq

/-- A command line that is carried out. -/
structure Invocation where
  verbose : Bool
  listBackends : Bool
  config : Option String
  request : Option Request
  deriving DecidableEq

/-- Why a command line is not carried out. -/
inductive Refusal where
  | helpWanted
  | versionWanted
  /-- The command line has no switch and no command. -/
  | nothingGiven
  | unknownCommand
  | unknownWord
  | missingInput
  | missingValue
  | repeated
  | unwantedValue
  deriving DecidableEq

namespace Request

/-- Flags switch options on; they never switch off what the configuration has on. -/
def options (r : Request) (configured : Config.MdastSettings) : Options :=
  let options := configured.toOptions
  ⟨options.flat || r.flat, options.noAsciiDocData || r.noAsciiDocData⟩

def indent (r : Request) (configured : Bool) : Bool := configured && !r.compact

end Request

end DocTree.CommandLine
