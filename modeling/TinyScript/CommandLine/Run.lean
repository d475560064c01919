import TinyScript.CommandLine.Files
import TinyScript.CommandLine.Log
import TinyScript.CommandLine.Options
import TinyScript.Session.Prompt

/-!
# The program

What the program does with a command line, its files, its input and its variables: two
texts and an exit code. Reading and writing for real is left to the outermost layer,
which goes through the same steps.
-/

namespace TinyScript.CommandLine

/-- Exit code of a wrong command line. -/
def usageExit : Nat := 64

/-- Exit code of a script that cannot be read. -/
def noInputExit : Nat := 66

/-- Exit code of a conversation that broke off. -/
def brokenExit : Nat := 74

/-- What a finished program has written, and its exit code. -/
structure Completion where
  exit : Nat
  stdout : String
  stderr : String
deriving DecidableEq, Repr

/-- What surrounds a program: its variables, and whether reports go to a terminal. -/
structure Setting where
  lookup : String → Option String
  tty : Bool

/-- What a program is started with. -/
structure World extends Setting where
  files : List StoredFile
  stdin : List UInt8

/-- Lines of text, each with its line end. -/
def linesText (lines : List String) : String :=
  String.join (lines.map (· ++ "\n"))

/-- The text of the help option. -/
def helpText : String :=
  linesText
    ["Illi interpreter",
     "",
     "Usage: illi [options] [script]",
     "",
     "With no script, starts an interactive prompt.",
     "",
     "Options:",
     "  --color=<mode>     Diagnostic colors: auto, always, never",
     "  --explain <code>   Explain an error code (e.g., E1002)",
     "  -h, --help         Show this help message",
     "  -V, --version      Show version information",
     "",
     "Environment:",
     "  ILLI_LOG           Tracing filter (falls back to RUST_LOG)"]

/-- The text of the version option. -/
def versionText : String := "Illi 0.1.0\n"

/-- What is said about a code that does not exist. -/
def unknownCodeText (code : String) : String :=
  linesText
    ["Unknown error code: " ++ code,
     "",
     "Codes have the format EXXXX where X is a digit.",
     "Examples: E0001, E1002"]

/-- What is said about a script that cannot be read. -/
def unreadableText (path : String) (e : FileError) : String :=
  "File not found: " ++ path ++ " (" ++ e.message ++ ")\n"

/-- What is said about a conversation that broke off. -/
def brokenText (message : String) : String :=
  "error: " ++ message ++ "\n"

/-- Explains a code. -/
def explain (code : String) : Completion :=
  match Diagnostic.Code.explain? code with
  | some text => ⟨0, text ++ "\n", ""⟩
  | none => ⟨usageExit, "", unknownCodeText code⟩

/-- A session that writes reports in the given colour mode and keeps what is printed. -/
def newSession (color : ColorMode) (tty : Bool) : Session Terminal :=
  .new (.new color tty) .empty

/-- The log lines of a run. -/
def outcomeLog (outcome : Outcome) : List LogLine :=
  match outcome with
  | .success => [⟨.debug, "executing"⟩]
  | .syntaxError => [⟨.debug, "syntax errors; not executing"⟩]
  | .runtimeError => [⟨.debug, "executing"⟩, ⟨.debug, "runtime error"⟩]

/-- The log lines that are written in a setting. -/
def Setting.log (w : Setting) (lines : List LogLine) : String :=
  logText (logFilter w.lookup) lines

/-- Runs what reading a script gave. -/
def runScript (w : Setting) (color : ColorMode) (path : String)
    (file : Except FileError (List UInt8)) : Completion :=
  let (result, s) := (newSession color w.tty).runScript file
  match result with
  | .error e => ⟨noInputExit, "", unreadableText path e⟩
  | .ok outcome =>
    let log := ⟨.debug, "running script " ++ path⟩ :: outcomeLog outcome
    ⟨outcome.exitCode, s.machine.output.text, s.sink.written ++ w.log log⟩

/-- The log line at the end of the input. -/
def endLog : LogLine := ⟨.trace, "end of input"⟩

/-- Holds a conversation over a whole input. -/
def runPrompt (w : Setting) (color : ColorMode) (input : List UInt8) : Completion :=
  let record := Prompt.run (newSession color w.tty) input none
  let log := record.outcomes.flatMap outcomeLog ++ if record.reachedEnd then [endLog] else []
  let stderr := record.session.sink.written ++ w.log log
  match record.result with
  | .ok _ => ⟨0, record.allText, stderr⟩
  | .error e => ⟨brokenExit, record.allText, stderr ++ brokenText e.message⟩

/-- What is said about a wrong command line. -/
def usage (e : UsageError) : Completion :=
  ⟨usageExit, "", e.message ++ "\n"⟩

/-- What the program does. -/
def run (w : World) (args : List String) : Completion :=
  match Options.parse args with
  | .error e => usage e
  | .ok options =>
    match options.command with
    | .prompt => runPrompt w.toSetting options.color w.stdin
    | .script path => runScript w.toSetting options.color path (readFile w.files path)
    | .explain code => explain code
    | .help => ⟨0, helpText, ""⟩
    | .version => ⟨0, versionText, ""⟩

end TinyScript.CommandLine
