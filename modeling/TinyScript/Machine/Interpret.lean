import TinyScript.Diagnostic.Sink
import TinyScript.Machine.Basic

/-!
# Running programs with reports

A run that stops at a fault reports it to a sink, once. At a prompt the value of a
last expression statement is printed as well.
-/

namespace TinyScript

/-- How a run ended: a run that failed has been reported. -/
inductive Verdict where
  | finished
  | failed
deriving DecidableEq, Repr

/-- The report about a fault. -/
def Fault.report (f : Fault) : RuntimeReport :=
  ⟨f.token.line, f.token.lexeme, f.cause.message⟩

namespace Machine

variable {σ : Type} [Sink σ]

/-- Reports the fault that a run stopped at, if it did. -/
def conclude (r : Run Machine Unit) (sink : σ) : Verdict × Machine × σ :=
  match r with
  | (.ok _, m) => (.finished, m, sink)
  | (.error fault, m) => (.failed, m, Sink.reportRuntime sink fault.report)

/-- Runs a program. -/
def interpret (m : Machine) (program : List Stmt) (sink : σ) : Verdict × Machine × σ :=
  conclude (m.executeAll program) sink

/-- Runs a program entered at a prompt, and prints the value of its last expression. -/
def interpretLine (m : Machine) (program : List Stmt) (sink : σ) : Verdict × Machine × σ :=
  match program.getLast? with
  | some (.expression last) =>
    match m.interpret program.dropLast sink with
    | (.finished, m, sink) =>
      conclude ((m.eval last).andThen fun v m => (.ok (), m.print v)) sink
    | stopped => stopped
  | _ => m.interpret program sink

end Machine

end TinyScript
