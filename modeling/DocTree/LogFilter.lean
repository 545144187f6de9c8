import DocTree.Log
import DocTree.Text.Split

/-!
Which log records are shown. A filter is a list of directives between commas; each sets the least
level for the records whose target starts with a text. Of several that apply the one with the
longest such text counts.
-/

namespace DocTree

/-- The least level of the records that are shown, or none when no record is. -/
abbrev Threshold := Option LogLevel

namespace Threshold

def ofNumber? : Nat → Option Threshold
  | 0 => some none
  | 1 => some (some .error)
  | 2 => some (some .warn)
  | 3 => some (some .info)
  | 4 => some (some .debug)
  | 5 => some (some .trace)
  | _ => none

def ofName? (name : String) : Option Threshold :=
  let name := name.toLower
  if name = "off" then some none
  else if name = "error" then some (some .error)
  else if name = "warn" then some (some .warn)
  else if name = "info" then some (some .info)
  else if name = "debug" then some (some .debug)
  else if name = "trace" then some (some .trace)
  else none

def read? (text : String) : Option Threshold :=
  let digits := match text.toList with
    | '+' :: cs => cs
    | cs => cs
  if !digits.isEmpty && digits.all Char.isDigit then
    ofNumber? (digits.foldl (fun n c => n * 10 + (c.toNat - 48)) 0)
  else ofName? text

def admits (t : Threshold) (level : LogLevel) : Bool :=
  t.any fun least => least.severity ≤ level.severity

end Threshold

structure Directive where
  target : String
  least : Threshold
  deriving DecidableEq

inductive DirectiveFault where
  | malformed
  | unknownLevel
  deriving DecidableEq

def DirectiveFault.message : DirectiveFault → String
  | .malformed => "invalid filter directive"
  | .unknownLevel =>
    "error parsing level filter: expected one of \"off\", \"error\", \"warn\", \"info\", " ++
      "\"debug\", \"trace\", or a number 0-5"

namespace Directive

def canStart (c : Char) : Bool :=
  c.isAlphanum || c = '-' || c = ':' || c = '_' || 127 < c.toNat

/-- A level for all records, a target with its level, or a target alone, all records of which are
shown. -/
def read (text : String) : Except DirectiveFault Directive :=
  let cs := text.toList
  let target := String.ofList (cs.takeWhile (· ≠ '='))
  if !cs.head?.any canStart || (cs.takeWhile (· ≠ '=')).contains '[' then .error .malformed
  else
    match cs.dropWhile (· ≠ '=') with
    | [] => .ok (((Threshold.read? text).map fun t => ⟨"", t⟩).getD ⟨target, some .trace⟩)
    | [_] => .ok ⟨target, some .trace⟩
    | _ :: level =>
      match Threshold.read? (String.ofList level) with
      | some t => .ok ⟨target, t⟩
      | none => .error .unknownLevel

end Directive

structure LogFilter where
  directives : List Directive
  deriving DecidableEq

namespace LogFilter

/-- The pieces of a filter, each with the directive that it spells. -/
def pieces (text : String) : List (String × Except DirectiveFault Directive) :=
  ((Text.split ',' text).filter (· ≠ "")).map fun piece => (piece, Directive.read piece)

/-- Errors are shown where nothing else is said. -/
def ofDirectives (ds : List Directive) : LogFilter :=
  ⟨if ds.isEmpty then [⟨"", some .error⟩] else ds⟩

def read? (text : String) : Option LogFilter := do
  return ofDirectives (← (pieces text).mapM fun piece => piece.2.toOption)

/-- The filter of those directives in a text that have no fault. -/
def readSound (text : String) : LogFilter :=
  ofDirectives ((pieces text).filterMap fun piece => piece.2.toOption)

def complaints (text : String) : List String :=
  (pieces text).filterMap fun (piece, d) =>
    match d with
    | .ok _ => none
    | .error fault => some ("ignoring \x60" ++ piece ++ "\x60: " ++ fault.message)

/-- The filter of the environment, or the configured one where that is missing or has a fault; and
the complaints about it. -/
def choose (environment : Option String) (configured : String) : LogFilter × List String :=
  match environment.bind read? with
  | some filter => (filter, [])
  | none => (readSound configured, complaints configured)

/-- The more specific of two directives; of two for the same target the later one. -/
def prefer (best : Option Directive) (d : Directive) : Option Directive :=
  match best with
  | none => some d
  | some b => if b.target.length ≤ d.target.length then some d else some b

/-- The directive that applies to the records of a source. -/
def directive? (filter : LogFilter) (source : LogSource) : Option Directive :=
  (filter.directives.filter fun d => d.target.toList.isPrefixOf source.target.toList).foldl prefer
    none

/-- Whether a record is shown. The opening of a span is not shown by itself. -/
def shows (filter : LogFilter) (r : LogRecord) : Bool :=
  r.span.isNone && (filter.directive? r.source).any fun d => d.least.admits r.level

end LogFilter

end DocTree
