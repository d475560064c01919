import TinyScript.Proofs.Session.Steps

/-!
# Sessions over different sinks

A session looks at its sink in one place, to see whether the flag of mistakes is up. So two
sessions with the same machine, over sinks of different types whose flags agree, give the
same answer to every step and are left with the same machine and with sinks whose flags
agree again (`Session.Alike`). A queue and a terminal start with the same flags and are
lawful, and what they do with the reports they are given never matters to the session.

## Main results

* `Session.Alike.take`, `Session.Alike.after`: sessions that are alike stay alike.
* `Session.queue_terminal`: a queue can stand for a terminal.
-/

namespace TinyScript

open Source (program)
open Sink (Call)

variable {σ τ : Type} [Sink σ] [Sink τ]

/-- Two sessions with the same machine, over sinks that agree. -/
def Session.Alike (s : Session σ) (t : Session τ) : Prop :=
  s.machine = t.machine ∧ Sink.Agree s.sink t.sink

variable [Sink.Lawful σ] [Sink.Lawful τ]

theorem Sink.Agree.close {sink : σ} {sink' : τ} (h : Agree sink sink') (step : Step) :
    Agree (step.close sink) (step.close sink') := by
  cases step with
  | line source => exact h.on .resetErrors
  | batch source => exact h
  | script file => exact h

namespace Session

namespace Alike

variable {s : Session σ} {t : Session τ}

/-- One step: the same answer, and sessions that are alike again. -/
theorem take (h : Alike s t) (step : Step) :
    (s.take step).1 = (t.take step).1 ∧ Alike (s.take step).2 (t.take step).2 := by
  obtain ⟨hMachine, hSink⟩ := h
  cases hRead : step.reading with
  | error e =>
      rw [take_of_error hRead, take_of_error hRead]
      exact ⟨rfl, hMachine, hSink⟩
  | ok source =>
      have hTold : Sink.Agree (s.told source) (t.told source) := (hSink.reportAll _).reportAll _
      rw [take_of_ok hRead, take_of_ok hRead, settled, settled, hMachine, hTold.1]
      by_cases hFlag : Sink.hadError (t.told source) = true
      · rw [if_pos hFlag, if_pos hFlag]
        exact ⟨rfl, rfl, hTold.close step⟩
      · rw [if_neg hFlag, if_neg hFlag]
        rcases step.execute t.machine (program source) with ⟨fault | _, m⟩
        · exact ⟨rfl, rfl, (hTold.on (.reportRuntime fault.report)).close step⟩
        · exact ⟨rfl, rfl, hTold.close step⟩

/-- Any number of steps. -/
theorem after (h : Alike s t) (steps : List Step) : Alike (s.after steps) (t.after steps) := by
  induction steps generalizing s t with
  | nil => exact h
  | cons step steps ih => exact ih (h.take step).2

end Alike

/--
**Sinks are interchangeable.** After the same calls a queue and a terminal, in any colour mode
and with or without a device behind it, have the same flags, which say whether a mistake was
reported since the flag was last lowered and whether a failed run was ever reported. Without
colours, a terminal has written the texts of the calls in order; with colours the same
pieces, the line markers and labels among them wrapped in their codes. So a session over a
terminal and a session over a queue give the same answer to every step, with the same
bindings and the same output.
-/
theorem queue_terminal (mode : ColorMode) (tty : Bool) :
    (∀ calls : List Call,
      let q := Sink.handle ({} : Queue) calls
      let t := Sink.handle (Terminal.new mode tty) calls
      Sink.Agree q t ∧
      (Sink.hadError q = true ↔ Since (fun _ c => c.IsMistake) (· = .resetErrors) calls) ∧
      (Sink.hadRuntimeError q = true ↔ ∃ c ∈ calls, c.IsFailure) ∧
      t.written =
        (if mode.useColors tty then
          String.join ((calls.flatMap Call.fragments).map (Fragment.shown true))
        else String.join (calls.map Call.text)) ∧
      String.join ((calls.flatMap Call.fragments).map Fragment.text) =
        String.join (calls.map Call.text)) ∧
    ∀ (output : Output) (past : List Step) (next : Step),
      let q := (new ({} : Queue) output).after past
      let t := (new (Terminal.new mode tty) output).after past
      q.machine = t.machine ∧ Sink.Agree q.sink t.sink ∧ (q.take next).1 = (t.take next).1 ∧
        (q.take next).2.machine = (t.take next).2.machine := by
  have hAgree : Sink.Agree ({} : Queue) (Terminal.new mode tty) :=
    Sink.fresh_queue.agree (Sink.fresh_terminal mode tty)
  refine ⟨fun calls => ⟨hAgree.handle calls, Sink.hadError_handle_iff Sink.fresh_queue calls,
    Sink.hadRuntimeError_handle_iff Sink.fresh_queue calls, ?_, ?_⟩, fun output past next => ?_⟩
  · rw [Terminal.written_handle (Terminal.colored_new mode tty)]
    cases mode.useColors tty with
    | true => exact String.empty_append
    | false => exact String.empty_append.trans (Call.join_flatMap_fragments calls)
  · exact Call.join_flatMap_fragments calls
  · have hStart : Alike (new ({} : Queue) output) (new (Terminal.new mode tty) output) :=
      ⟨rfl, hAgree⟩
    have hPast := hStart.after past
    have hNext := hPast.take next
    exact ⟨hPast.1, hPast.2, hNext.1, hNext.2.1⟩

end Session

end TinyScript
