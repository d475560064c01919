import TinyScript.Diagnostic.Sink

/-!
# Command lines

Arguments are read from left to right. Most options decide at once what is to be done;
a colour option is only remembered, and so is the first argument that is no option, the
script. What decides first wins.
-/

namespace TinyScript.CommandLine

/-- What is to be done. -/
inductive Command where
  | prompt
  | script (path : String)
  | explain (code : String)
  | help
  | version
deriving DecidableEq, Repr

/-- A command and how its reports are coloured. -/
structure Options where
  color : ColorMode
  command : Command
deriving DecidableEq, Repr

/-- What is wrong with a command line. -/
inductive UsageError where
  | tooManyScripts
  | invalidColor (value : String)
  | missingExplainCode
  | unknownOption (arg : String)
deriving DecidableEq, Repr

/-- What is said about a wrong command line. -/
def UsageError.message : UsageError → String
  | .tooManyScripts => "Usage: illi [script]"
  | .invalidColor value =>
    "invalid value '" ++ value ++ "' for --color (expected auto, always or never)"
  | .missingExplainCode => "Usage: illi --explain <CODE>"
  | .unknownOption arg =>
    "unknown option '" ++ arg ++ "'\nUsage: illi [--color=auto|always|never] [script]"

/-- What an argument by itself is. -/
inductive Argument where
  | color (value : String)
  | explain
  | help
  | version
  | unknown
  | script
deriving DecidableEq, Repr

/-- The text after a start, if a text starts that way. -/
def after? (start text : List Char) : Option (List Char) :=
  match start, text with
  | [], rest => some rest
  | _ :: _, [] => none
  | c :: start, d :: rest => if c = d then after? start rest else none

/-- What an argument by itself is. -/
def Argument.of (arg : String) : Argument :=
  match after? "--color=".toList arg.toList with
  | some value => .color (String.ofList value)
  | none =>
    if arg = "--explain" then .explain
    else if arg = "--help" ∨ arg = "-h" then .help
    else if arg = "--version" ∨ arg = "-V" then .version
    else if (after? "--".toList arg.toList).isSome then .unknown
    else .script

/-- Reads arguments after those that gave `color` and `script`. -/
def Options.parseFrom (color : ColorMode) (script : Option String) :
    List String → Except UsageError Options
  | [] =>
    match script with
    | some path => .ok ⟨color, .script path⟩
    | none => .ok ⟨color, .prompt⟩
  | arg :: rest =>
    match Argument.of arg with
    | .color value =>
      match ColorMode.ofName? value with
      | some color => parseFrom color script rest
      | none => .error (.invalidColor value)
    | .explain =>
      match rest with
      | code :: _ => .ok ⟨color, .explain code⟩
      | [] => .error .missingExplainCode
    | .help => .ok ⟨color, .help⟩
    | .version => .ok ⟨color, .version⟩
    | .unknown => .error (.unknownOption arg)
    | .script =>
      match script with
      | some _ => .error .tooManyScripts
      | none => parseFrom color (some arg) rest

/-- Reads a command line. -/
def Options.parse (args : List String) : Except UsageError Options :=
  parseFrom .auto none args

end TinyScript.CommandLine
