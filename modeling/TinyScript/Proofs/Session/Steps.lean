import TinyScript.Proofs.Diagnostic.Sinks
import TinyScript.Proofs.Machine.Visibility
import TinyScript.Proofs.Session.Reading

/-!
# Sessions step by step

What a host asks of a session is a list of steps: batches, prompt lines and script files. A
step first gives a source or the error of a file. What a source comes to is one of three
things, and `Session.Taken` lists them with the conditions under which each comes about: it
is refused, or it is run and finishes, or it is run and fails. Everything about a session
over time is read off this list.

A session does the same whatever was printed before, and only adds to it.

## Main results

* `Session.taken_take`: what a step comes to.
* `Session.exists_take_eq`, `Session.exists_after_eq`, `Session.exists_answers_eq`: steps with
  any output.
-/

namespace TinyScript

open Source (Clean program)

/-- Something that is asked of a session. -/
inductive Step where
  | batch (source : String)
  | line (source : String)
  | script (file : Except FileError (List UInt8))

namespace Step

/-- The source of a step, if there is one. -/
def reading : Step → Except FileError String
  | .batch source => .ok source
  | .line source => .ok source
  | .script (.error e) => .error e
  | .script (.ok bytes) =>
    match Text.decode? bytes with
    | some source => .ok source
    | none => .error .notText

/-- Whether a step is a prompt line. -/
def IsLine : Step → Prop
  | .line _ => True
  | _ => False

/-- How a step runs a program. -/
def execute : Step → Machine → List Stmt → Run Machine Unit
  | .line _ => Machine.runLine
  | _ => Machine.executeAll

/-- How a step runs a program and reports about it. -/
def interpret {σ : Type} [Sink σ] : Step → Machine → List Stmt → σ → Verdict × Machine × σ
  | .line _ => Machine.interpretLine
  | _ => Machine.interpret

/-- What is done with the sink at the end of a step. -/
def close {σ : Type} [Sink σ] : Step → σ → σ
  | .line _ => Sink.resetErrors
  | _ => id

theorem interpret_eq {σ : Type} [Sink σ] (step : Step) (m : Machine) (p : List Stmt) (sink : σ) :
    step.interpret m p sink = Machine.conclude (step.execute m p) sink := by
  cases step with
  | line source => exact Machine.interpretLine_eq m p sink
  | batch source => rfl
  | script file => rfl

end Step

namespace Session

variable {σ : Type} [Sink σ]

/-- What a session answers to a step, and what becomes of it. -/
def take (s : Session σ) : Step → Except FileError Outcome × Session σ
  | .batch source => (.ok (s.run source).1, (s.run source).2)
  | .line source => (.ok (s.runLine source).1, (s.runLine source).2)
  | .script file => s.runScript file

/-- The session after steps in order. -/
def after (s : Session σ) (steps : List Step) : Session σ :=
  steps.foldl (fun s step => (s.take step).2) s

/-- What a session answers to steps in order. -/
def answers (s : Session σ) : List Step → List (Except FileError Outcome)
  | [] => []
  | step :: steps => (s.take step).1 :: (s.take step).2.answers steps

theorem after_concat (s : Session σ) (steps : List Step) (step : Step) :
    s.after (steps ++ [step]) = ((s.after steps).take step).2 := by
  rw [after, List.foldl_append]
  rfl

/-! ## One step -/

/-- A script is run as the batch that its file holds, if the file holds a text. -/
theorem take_script (s : Session σ) (file : Except FileError (List UInt8)) :
    s.take (.script file) =
      match Step.reading (.script file) with
      | .error e => (.error e, s)
      | .ok source => s.take (.batch source) := by
  cases file with
  | error e => rfl
  | ok bytes =>
      simp only [take, runScript, Step.reading]
      cases Text.decode? bytes <;> rfl

theorem take_of_error {step : Step} {e : FileError} (h : step.reading = .error e)
    (s : Session σ) : s.take step = (.error e, s) := by
  cases step with
  | batch source => cases h
  | line source => cases h
  | script file => rw [take_script, h]

/-- A source is settled by running it as the step does, and then the step is closed. -/
theorem take_of_ok {step : Step} {source : String} (h : step.reading = .ok source)
    (s : Session σ) :
    s.take step =
      (.ok (s.settled source (step.execute s.machine (program source))).1,
        { (s.settled source (step.execute s.machine (program source))).2 with
          sink := step.close
            (s.settled source (step.execute s.machine (program source))).2.sink }) := by
  have hBatch : s.take (.batch source) =
      (.ok (s.settled source (s.machine.executeAll (program source))).1,
        (s.settled source (s.machine.executeAll (program source))).2) := by
    rw [take, run_eq]
  cases step with
  | batch source' =>
      cases h
      exact hBatch
  | line source' =>
      cases h
      rw [take, runLine_eq]
      rfl
  | script file =>
      rw [take_script, h]
      exact hBatch

/-- What a step can come to. -/
inductive Taken (s : Session σ) (step : Step) : Except FileError Outcome × Session σ → Prop
  | unread {e : FileError} (hRead : step.reading = .error e) : Taken s step (.error e, s)
  | refused {source : String} (hRead : step.reading = .ok source)
    (hMistake : Sink.hadError s.sink = true ∨ ¬Clean source) :
    Taken s step (.ok .syntaxError, ⟨s.machine, step.close (s.told source)⟩)
  | finished {source : String} {m : Machine} (hRead : step.reading = .ok source)
    (hFlag : Sink.hadError s.sink = false) (hClean : Clean source)
    (hRun : step.execute s.machine (program source) = (.ok (), m)) :
    Taken s step (.ok .success, ⟨m, step.close s.sink⟩)
  | failed {source : String} {fault : Fault} {m : Machine} (hRead : step.reading = .ok source)
    (hFlag : Sink.hadError s.sink = false) (hClean : Clean source)
    (hRun : step.execute s.machine (program source) = (.error fault, m)) :
    Taken s step (.ok .runtimeError, ⟨m, step.close (Sink.reportRuntime s.sink fault.report)⟩)

/-- The flag is up after a source if it was up before, or if there is a mistake in the source. -/
theorem hadError_told [Sink.Lawful σ] (s : Session σ) (source : String) :
    Sink.hadError (s.told source) = true ↔ Sink.hadError s.sink = true ∨ ¬Clean source := by
  rw [told, Sink.hadError_reportAll, Sink.hadError_reportAll]
  simp only [Bool.or_eq_true, Bool.not_eq_true', List.isEmpty_eq_false_iff, Clean, not_and_or,
    or_assoc]

theorem taken_take [Sink.Lawful σ] (s : Session σ) (step : Step) : Taken s step (s.take step) := by
  cases hRead : step.reading with
  | error e =>
      rw [take_of_error hRead]
      exact .unread hRead
  | ok source =>
      rw [take_of_ok hRead, settled]
      by_cases hTold : Sink.hadError (s.told source) = true
      · rw [if_pos hTold]
        exact .refused hRead ((s.hadError_told source).1 hTold)
      · obtain ⟨hFlag, hClean⟩ := not_or.1 (mt (s.hadError_told source).2 hTold)
        rw [if_neg hTold, s.told_of_clean (not_not.1 hClean)]
        rcases hRun : step.execute s.machine (program source) with ⟨fault | _, m⟩
        · exact .failed hRead (by simpa using hFlag) (not_not.1 hClean) hRun
        · exact .finished hRead (by simpa using hFlag) (not_not.1 hClean) hRun

section Source

variable [Sink.Lawful σ] {step : Step} {source : String} (hRead : step.reading = .ok source)
include hRead

/-- A source is refused for a mistake in it, or because the flag of mistakes is up. -/
theorem take_eq_syntaxError_iff (s : Session σ) :
    (s.take step).1 = .ok .syntaxError ↔ ¬Clean source ∨ Sink.hadError s.sink = true := by
  have hTaken := s.taken_take step
  generalize s.take step = r at hTaken ⊢
  cases hTaken with
  | unread hRead' => cases hRead.symm.trans hRead'
  | refused hRead' hMistake =>
      cases hRead.symm.trans hRead'
      simpa using hMistake.symm
  | finished hRead' hFlag hClean hRun =>
      cases hRead.symm.trans hRead'
      simp [hFlag, hClean]
  | failed hRead' hFlag hClean hRun =>
      cases hRead.symm.trans hRead'
      simp [hFlag, hClean]

/-- A source that is refused is told to the sink and leaves the machine alone. -/
theorem take_of_refused {s : Session σ} (h : (s.take step).1 = .ok .syntaxError) :
    (s.take step).2 = ⟨s.machine, step.close (s.told source)⟩ := by
  have hTaken := s.taken_take step
  generalize s.take step = r at hTaken h ⊢
  cases hTaken with
  | unread hRead' => cases hRead.symm.trans hRead'
  | refused hRead' hMistake =>
      cases hRead.symm.trans hRead'
      rfl
  | finished hRead' hFlag hClean hRun => cases h
  | failed hRead' hFlag hClean hRun => cases h

/-- A source that is not refused is run, and at most one report about the run is made. -/
theorem take_of_ran {s : Session σ} (h : (s.take step).1 ≠ .ok .syntaxError) :
    (s.take step).2.machine = (step.interpret s.machine (program source) s.sink).2.1 ∧
      ∃ runs : List RuntimeReport,
        (s.take step).2.sink = step.close (runs.foldl Sink.reportRuntime s.sink) ∧
        runs.length ≤ 1 ∧
        ((s.take step).1 = .ok .runtimeError ↔ runs.length = 1) ∧
        ((s.take step).1 = .ok .success ↔ runs = []) := by
  have hTaken := s.taken_take step
  rw [Step.interpret_eq]
  generalize s.take step = r at hTaken h ⊢
  cases hTaken with
  | unread hRead' => cases hRead.symm.trans hRead'
  | refused hRead' hMistake => exact absurd rfl h
  | finished hRead' hFlag hClean hRun =>
      cases hRead.symm.trans hRead'
      rw [hRun]
      exact ⟨rfl, [], rfl, by simp, by simp, by simp⟩
  | @failed _ fault _ hRead' hFlag hClean hRun =>
      cases hRead.symm.trans hRead'
      rw [hRun]
      exact ⟨rfl, [fault.report], rfl, by simp, by simp, by simp⟩

end Source

end Session

/-! ## Any output -/

namespace Machine

/-- A run ends alike with every output, and adds the same text to it. -/
theorem exists_executeAll_eq (env : Environment) (p : List Stmt) :
    ∃ result text after, ∀ o, executeAll ⟨env, o⟩ p = (result, ⟨after, o.append text⟩) := by
  obtain ⟨result, text, after, -, -, hRun, -⟩ :=
    executeAll_twins p (List.Subset.refl _) (.base fun x _ => Eq.refl (env.get? x))
  exact ⟨result, text, after, hRun⟩

theorem exists_runLine_eq (env : Environment) (p : List Stmt) :
    ∃ result text after, ∀ o, runLine ⟨env, o⟩ p = (result, ⟨after, o.append text⟩) := by
  unfold runLine
  split
  · next last _ =>
      obtain ⟨result, text, after, hInit⟩ := exists_executeAll_eq env p.dropLast
      cases result with
      | error fault => exact ⟨.error fault, text, after, fun o => by rw [hInit]; rfl⟩
      | ok _ =>
          rcases hLast : last.eval after with ⟨fault | v, after'⟩
          · refine ⟨.error fault, text, after', fun o => ?_⟩
            rw [hInit, Run.andThen, Machine.eval, hLast]
            rfl
          · refine ⟨.ok (), text ++ (v.display ++ "\n"), after', fun o => ?_⟩
            rw [hInit, Run.andThen, Machine.eval, hLast, ← Output.append_append,
              ← Output.println_eq]
            rfl
  · exact exists_executeAll_eq env p

end Machine

theorem Step.exists_execute_eq (step : Step) (env : Environment) (p : List Stmt) :
    ∃ result text after, ∀ o, step.execute ⟨env, o⟩ p = (result, ⟨after, o.append text⟩) := by
  cases step with
  | line source => exact Machine.exists_runLine_eq env p
  | batch source => exact Machine.exists_executeAll_eq env p
  | script file => exact Machine.exists_executeAll_eq env p

namespace Session

variable {σ : Type} [Sink σ]

/-- A step has the same answer with every output, and adds the same text to it. -/
theorem exists_take_eq (env : Environment) (sink : σ) (step : Step) :
    ∃ answer env' text sink', ∀ o,
      take ⟨⟨env, o⟩, sink⟩ step = (answer, ⟨⟨env', o.append text⟩, sink'⟩) := by
  cases hRead : step.reading with
  | error e =>
      refine ⟨.error e, env, "", sink, fun o => ?_⟩
      rw [take_of_error hRead, o.append_empty]
  | ok source =>
      obtain ⟨result, text, env', hRun⟩ := step.exists_execute_eq env (program source)
      obtain ⟨sink₁, hTold⟩ : ∃ sink₁, ∀ o, told ⟨⟨env, o⟩, sink⟩ source = sink₁ :=
        ⟨told ⟨⟨env, .standard⟩, sink⟩ source, fun _ => rfl⟩
      by_cases hFlag : Sink.hadError sink₁ = true
      · refine ⟨.ok .syntaxError, env, "", step.close sink₁, fun o => ?_⟩
        rw [take_of_ok hRead, settled, hTold, if_pos hFlag, o.append_empty]
      · cases result with
        | error fault =>
            refine ⟨.ok .runtimeError, env', text,
              step.close (Sink.reportRuntime sink₁ fault.report), fun o => ?_⟩
            rw [take_of_ok hRead, settled, hTold, if_neg hFlag, hRun]
            rfl
        | ok _ =>
            refine ⟨.ok .success, env', text, step.close sink₁, fun o => ?_⟩
            rw [take_of_ok hRead, settled, hTold, if_neg hFlag, hRun]
            rfl

theorem exists_after_eq (env : Environment) (sink : σ) (steps : List Step) :
    ∃ env' text sink', ∀ o, after ⟨⟨env, o⟩, sink⟩ steps = ⟨⟨env', o.append text⟩, sink'⟩ := by
  induction steps generalizing env sink with
  | nil => exact ⟨env, "", sink, fun o => by rw [o.append_empty]; rfl⟩
  | cons step steps ih =>
      obtain ⟨answer, env₁, text, sink₁, hTake⟩ := exists_take_eq env sink step
      obtain ⟨env', more, sink', hAfter⟩ := ih env₁ sink₁
      refine ⟨env', text ++ more, sink', fun o => ?_⟩
      rw [← Output.append_append, ← hAfter, after, List.foldl_cons, hTake]
      rfl

theorem exists_answers_eq (env : Environment) (sink : σ) (steps : List Step) :
    ∃ list, ∀ o, answers ⟨⟨env, o⟩, sink⟩ steps = list := by
  induction steps generalizing env sink with
  | nil => exact ⟨[], fun _ => rfl⟩
  | cons step steps ih =>
      obtain ⟨answer, env', text, sink', hTake⟩ := exists_take_eq env sink step
      obtain ⟨list, hAnswers⟩ := ih env' sink'
      refine ⟨answer :: list, fun o => ?_⟩
      rw [answers, hTake, hAnswers]

end Session

end TinyScript
