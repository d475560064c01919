import TinyScript.Proofs.Machine.Lines

/-!
# Echoes at a prompt

At a prompt a program is run in two parts if it ends in an expression: what precedes the
expression is run as a script is, and the expression is evaluated by itself, so that its
value can be printed. A script evaluates the same expression as its last statement and drops
the value. The two runs are the same up to that value, and so they stop at the same fault or
at none, bind the same names and print the same text before the echo.

## Main results

* `runLine_eq_echo`: a run at a prompt, from the run as a script and the echo.
* `echo?_eq_some_iff`, `isSome_echo?_iff`: which value is echoed, and when there is one.
* `interpretLine_agrees`: the same with verdicts and reports.
-/

namespace TinyScript

namespace Stmt

/-- Whether the last statement of a program is an expression. -/
def EndInExpression (program : List Stmt) : Prop :=
  ∃ init last, program = init ++ [.expression last]

theorem endInExpression_iff {program : List Stmt} :
    EndInExpression program ↔ ∃ last, program.getLast? = some (.expression last) := by
  simp only [EndInExpression, List.getLast?_eq_some_iff]
  exact exists_comm

end Stmt

namespace Machine

open Stmt (EndInExpression endInExpression_iff)

/-- The value that a run has at its end: that of a last expression, once all before it has run. -/
def echo? (m : Machine) (program : List Stmt) : Option Value :=
  match program.getLast? with
  | some (.expression last) =>
    ((m.executeAll program.dropLast).andThen fun _ m => m.eval last).1.toOption
  | _ => none

variable {m : Machine} {program : List Stmt} {v : Value}

/-! ## Programs that end in an expression -/

theorem echo?_concat (m : Machine) (init : List Stmt) (last : Expr) :
    m.echo? (init ++ [.expression last]) =
      ((m.executeAll init).andThen fun _ m => m.eval last).1.toOption := by
  simp [echo?]

theorem runLine_concat (m : Machine) (init : List Stmt) (last : Expr) :
    m.runLine (init ++ [.expression last]) =
      (m.executeAll init).andThen fun _ m =>
        (m.eval last).andThen fun v m => (.ok (), m.print v) := by
  simp [runLine]

theorem executeAll_concat (m : Machine) (init : List Stmt) (last : Expr) :
    m.executeAll (init ++ [.expression last]) =
      (m.executeAll init).andThen fun _ m => (m.eval last).andThen fun _ m => (.ok (), m) := by
  rw [executeAll_append]
  refine congrArg _ (funext fun _ => funext fun m => ?_)
  show ((m.eval last).andThen _).andThen _ = _
  obtain ⟨result, m'⟩ := m.eval last
  cases result <;> rfl

/-! ## Programs that end otherwise -/

theorem echo?_eq_none (h : ¬EndInExpression program) : m.echo? program = none := by
  unfold echo?
  split
  · next last hLast => exact absurd (endInExpression_iff.2 ⟨last, hLast⟩) h
  · rfl

theorem runLine_eq_executeAll (h : ¬EndInExpression program) :
    m.runLine program = m.executeAll program := by
  unfold runLine
  split
  · next last hLast => exact absurd (endInExpression_iff.2 ⟨last, hLast⟩) h
  · rfl

/-! ## All programs -/

/-- A run at a prompt is the run as a script, with the echo printed behind it. -/
theorem runLine_eq_echo (m : Machine) (program : List Stmt) :
    m.runLine program =
      ((m.executeAll program).1,
        (m.echo? program).elim (m.executeAll program).2 (m.executeAll program).2.print) := by
  by_cases hEnd : EndInExpression program
  · obtain ⟨init, last, rfl⟩ := hEnd
    rw [runLine_concat, echo?_concat, executeAll_concat]
    obtain ⟨result, before⟩ := m.executeAll init
    cases result with
    | error fault => rfl
    | ok _ =>
        simp only [Run.andThen]
        obtain ⟨result, after⟩ := before.eval last
        cases result <;> rfl
  · rw [runLine_eq_executeAll hEnd, echo?_eq_none hEnd]
    rfl

/-- What is echoed is the value of the last expression where the run gets to it. -/
theorem echo?_eq_some_iff :
    m.echo? program = some v ↔
      ∃ init last before after, program = init ++ [.expression last] ∧
        m.executeAll init = (.ok (), before) ∧ before.eval last = (.ok v, after) := by
  constructor
  · intro h
    by_cases hEnd : EndInExpression program
    · obtain ⟨init, last, rfl⟩ := hEnd
      rw [echo?_concat] at h
      rcases hInit : m.executeAll init with ⟨fault | _, before⟩
      · rw [hInit] at h
        cases h
      · rw [hInit] at h
        rcases hEval : before.eval last with ⟨fault | w, after⟩
        · simp [Run.andThen, hEval, Except.toOption] at h
        · obtain rfl : w = v := by simpa [Run.andThen, hEval, Except.toOption] using h
          exact ⟨init, last, before, after, rfl, hInit, hEval⟩
    · rw [echo?_eq_none hEnd] at h
      cases h
  · rintro ⟨init, last, before, after, rfl, hInit, hEval⟩
    simp [echo?_concat, hInit, Run.andThen, hEval, Except.toOption]

/-- There is an echo exactly if all of a program has run and an expression ends it. -/
theorem isSome_echo?_iff :
    (m.echo? program).isSome ↔ (m.executeAll program).1 = .ok () ∧ EndInExpression program := by
  by_cases hEnd : EndInExpression program
  · obtain ⟨init, last, rfl⟩ := hEnd
    have hEnd : EndInExpression (init ++ [.expression last]) := ⟨init, last, rfl⟩
    rw [echo?_concat, executeAll_concat]
    obtain ⟨result, before⟩ := m.executeAll init
    cases result with
    | error fault => simp [Run.andThen, Except.toOption]
    | ok _ =>
        simp only [Run.andThen]
        obtain ⟨result, after⟩ := before.eval last
        cases result <;> simp [Except.toOption, hEnd]
  · simp [echo?_eq_none hEnd, hEnd]

/--
**A prompt and a script agree.** Run the same program on the same machine, at a prompt and
as a script. There is at most one report: both runs fail and hand it to their sinks, or both
finish and report nothing. The names are bound alike. What is printed differs by at most one
line, the display form of the value of the last expression; it is there exactly if the
last statement is an expression and the whole program has finished.
-/
theorem interpretLine_agrees {σ : Type} [Sink σ] (m : Machine) (program : List Stmt) (sink : σ) :
    let script := m.interpret program sink
    let line := m.interpretLine program sink
    ∃ (report? : Option RuntimeReport) (echo? : Option Value),
      line.1 = script.1 ∧ (script.1 = .failed ↔ report?.isSome) ∧
      script.2.2 = report?.elim sink (Sink.reportRuntime sink) ∧
      line.2.2 = report?.elim sink (Sink.reportRuntime sink) ∧
      line.2.1.env = script.2.1.env ∧
      line.2.1.output =
        echo?.elim script.2.1.output (fun v => script.2.1.output.println v.display) ∧
      (echo?.isSome ↔ script.1 = .finished ∧ EndInExpression program) ∧
      ∀ v, echo? = some v ↔
        ∃ init last before after, program = init ++ [.expression last] ∧
          m.executeAll init = (.ok (), before) ∧ before.eval last = (.ok v, after) := by
  intro script line
  have hLine : line = conclude ((m.executeAll program).1,
      (m.echo? program).elim (m.executeAll program).2 (m.executeAll program).2.print) sink := by
    rw [← runLine_eq_echo]
    exact m.interpretLine_eq program sink
  have hScript : script = conclude (m.executeAll program) sink := rfl
  have hSome := @isSome_echo?_iff m program
  rcases hRun : m.executeAll program with ⟨fault | _, after⟩
  · -- A run that stops has no value at its end, so there is nothing to echo.
    rw [hRun] at hSome hLine hScript
    have hNone : m.echo? program = none := by simpa using hSome
    have hStopped : script = (.failed, after, Sink.reportRuntime sink fault.report) := hScript
    have hSame : line = script := by rw [hLine, hNone, hScript]; rfl
    refine ⟨some fault.report, m.echo? program, ?_, ?_, ?_, ?_, ?_, ?_, ?_,
      fun v => echo?_eq_some_iff⟩
    all_goals simp [hSame, hStopped, hNone]
  · rw [hRun] at hSome hLine hScript
    have hFinished : script = (.finished, after, sink) := hScript
    have hEchoed : line = (.finished, (m.echo? program).elim after after.print, sink) := hLine
    refine ⟨none, m.echo? program, ?_, ?_, ?_, ?_, ?_, ?_, ?_, fun v => echo?_eq_some_iff⟩
    · rw [hEchoed, hFinished]
    · simp [hFinished]
    · rw [hFinished]
      rfl
    · rw [hEchoed]
      rfl
    · rw [hEchoed, hFinished]
      cases m.echo? program <;> rfl
    · rw [hEchoed, hFinished]
      cases m.echo? program <;> rfl
    · simpa [hFinished] using hSome

end Machine

end TinyScript
