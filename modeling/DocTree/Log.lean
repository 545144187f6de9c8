import DocTree.Traced

/-!
Log records. Every record has a source, a level and named fields of text; a record that opens a
span, which is the frame of the records after it, has the name of the span as well.
-/

namespace DocTree

/-- How much a record matters, from the least to the most. -/
inductive LogLevel where
  | trace
  | debug
  | info
  | warn
  | error
  deriving DecidableEq

namespace LogLevel

def name : LogLevel → String
  | .trace => "TRACE"
  | .debug => "DEBUG"
  | .info => "INFO"
  | .warn => "WARN"
  | .error => "ERROR"

def severity : LogLevel → Nat
  | .trace => 1
  | .debug => 2
  | .info => 3
  | .warn => 4
  | .error => 5

end LogLevel

/-- The parts of the program that leave log records. -/
inductive LogSource where
  | program
  | plain
  | mdast
  | diagnostics
  deriving DecidableEq

/-- What a source is called in log filters. -/
def LogSource.target : LogSource → String
  | .program => "adoc_json"
  | .plain => "adoc_json::backends::json"
  | .mdast => "adoc_json::backends::mdast"
  | .diagnostics => "adoc_json::diagnostics"

structure LogRecord where
  source : LogSource
  level : LogLevel
  span : Option String := none
  fields : List (String × String)
  deriving DecidableEq

namespace LogRecord

def event (source : LogSource) (level : LogLevel) (message : String)
    (fields : List (String × String)) : LogRecord where
  source
  level
  fields := ("message", message) :: fields

def opened (source : LogSource) (fields : List (String × String)) : LogRecord where
  source
  level := .debug
  span := some "convert"
  fields

end LogRecord

def Diagnostic.logRecord : Diagnostic → LogRecord
  | .unknownNodeKind context nodeName =>
    .event .diagnostics .warn "unprocessed node, using generic encoder"
      [("context", context), ("node_name", nodeName)]
  | .unknownShape value =>
    .event .diagnostics .warn "unknown node shape, passed through unchanged"
      [("value", value.compact)]

def Event.logRecord? : Event → Option LogRecord
  | .enter nodeName => some (.event .mdast .trace "converting node" [("node_name", nodeName)])
  | .report diagnostic => some diagnostic.logRecord
  | .record _ _ _ => none

end DocTree
