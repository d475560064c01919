import TinyScript.Text.Blank

/-!
# Logging

Logging is off unless an environment variable asks for it. The first of the two
variables that is not blank gives the filter, which names the least severe level to be
written.
-/

namespace TinyScript.CommandLine

/-- Levels of log lines, the most severe first. -/
inductive LogLevel where
  | error
  | warn
  | info
  | debug
  | trace
deriving DecidableEq, Repr

namespace LogLevel

/-- Position of a level, the most severe first. -/
def index (l : LogLevel) : Nat :=
  l.ctorIdx

/-- The name that a filter gives a level. -/
def name : LogLevel → String
  | .error => "error"
  | .warn => "warn"
  | .info => "info"
  | .debug => "debug"
  | .trace => "trace"

/-- The level that a filter names, in either case. -/
def ofName? (s : String) : Option LogLevel :=
  let wanted := (Text.trim s).map Char.toLower
  [error, warn, info, debug, trace].find? fun l => l.name == wanted

end LogLevel

/-- The variables that can hold a filter, in order of preference. -/
def filterVariables : List String := ["ILLI_LOG", "RUST_LOG"]

/-- The filter: the first value that is not blank. -/
def logFilter (lookup : String → Option String) : Option String :=
  (filterVariables.filterMap lookup).find? fun value => !(Text.trim value).isEmpty

/-- A line for the log. -/
structure LogLine where
  level : LogLevel
  text : String

/-- The lines that a filter lets through, as text. -/
def logText (filter : Option String) (lines : List LogLine) : String :=
  match filter.bind LogLevel.ofName? with
  | none => ""
  | some least =>
    String.join ((lines.filter fun line => line.level.index ≤ least.index).map fun line =>
      line.level.name ++ ": " ++ line.text ++ "\n")

end TinyScript.CommandLine
