import TinyScript.Grammar.Statement
import TinyScript.Machine.Interpret
import TinyScript.Source.Lexer
import TinyScript.Text.Lines

/-!
# Sessions

A session runs sources one after another on one machine and reports to one sink. A
source with mistakes is reported and not run. The sink's flag of mistakes stays up
after a batch, so nothing is run after a batch with mistakes; a prompt line lowers the
flag when it is done.
-/

namespace TinyScript

/-- How a source fared. -/
inductive Outcome where
  | success
  | syntaxError
  | runtimeError
deriving DecidableEq, Repr

/-- The exit code of a program that ends with this outcome. -/
def Outcome.exitCode : Outcome → Nat
  | .success => 0
  | .syntaxError => 65
  | .runtimeError => 70

/-- Why a file gives no text. -/
inductive FileError where
  | notFound
  | notDirectory
  | isDirectory
  | notText
  /-- Any other failure, in the system's words. -/
  | other (message : String)
deriving DecidableEq, Repr

/-- What is said about bytes that are no text. -/
def invalidTextMessage : String := "stream did not contain valid UTF-8"

/-- What is said about a file that gives no text. -/
def FileError.message : FileError → String
  | .notFound => "No such file or directory (os error 2)"
  | .notDirectory => "Not a directory (os error 20)"
  | .isDirectory => "Is a directory (os error 21)"
  | .notText => invalidTextMessage
  | .other message => message

/-- A machine and the sink that its runs report to. -/
structure Session (σ : Type) where
  machine : Machine
  sink : σ

namespace Session

variable {σ : Type} [Sink σ]

/-- A session with no names. -/
def new (sink : σ) (output : Output) : Session σ :=
  ⟨.new output, sink⟩

/-- Reads a source and, if the flag of mistakes is down, runs it by `run`. -/
def runWith (run : Machine → List Stmt → σ → Verdict × Machine × σ) (s : Session σ)
    (source : String) : Outcome × Session σ :=
  let lexed := Source.lex source
  let parsed := Grammar.parse lexed.tokens
  let sink := Sink.reportAll (Sink.reportAll s.sink lexed.diagnostics) parsed.diagnostics
  if Sink.hadError sink then
    (.syntaxError, { s with sink })
  else
    match run s.machine parsed.program sink with
    | (.finished, machine, sink) => (.success, ⟨machine, sink⟩)
    | (.failed, machine, sink) => (.runtimeError, ⟨machine, sink⟩)

/-- Runs a batch. -/
def run (s : Session σ) (source : String) : Outcome × Session σ :=
  s.runWith Machine.interpret source

/-- Runs a prompt line: its last value is printed, and the flag of mistakes lowered. -/
def runLine (s : Session σ) (line : String) : Outcome × Session σ :=
  let (outcome, s) := s.runWith Machine.interpretLine line
  (outcome, { s with sink := Sink.resetErrors s.sink })

/-- Runs the text of a file as a batch; a file that gives no text changes nothing. -/
def runScript (s : Session σ) (file : Except FileError (List UInt8)) :
    Except FileError Outcome × Session σ :=
  match file with
  | .error e => (.error e, s)
  | .ok bytes =>
    match Text.decode? bytes with
    | none => (.error .notText, s)
    | some source =>
      let (outcome, s) := s.run source
      (.ok outcome, s)

end Session

end TinyScript
