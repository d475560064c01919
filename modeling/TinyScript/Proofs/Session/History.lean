import TinyScript.Proofs.Machine.Depth
import TinyScript.Proofs.Session.Steps

/-!
# Sessions over time

Whether a session runs a source depends on its history. The flag of mistakes is in the
sink, raised by a mistake in any source and lowered by prompt lines alone, so a batch with
a mistake in it stands in the way of every later batch until a prompt line is done. The
other flag is raised by the first run that fails and never lowered.

Both flags, and the depth of the environment, are settled for one step by what the step
can come to (`Session.Taken`), and then for a history by induction from its end.

## Main results

* `Session.hadError_after`, `Session.hadRuntimeError_after`: the flags after a history.
* `Session.depth_after`: one frame between steps.
* `Session.orderly_history`: what the next step does.
-/

namespace TinyScript

open Source (Clean program)

namespace Step

/-- Whether a step leaves a mistake behind: a batch or a script with a mistake in it. -/
def Spoils (step : Step) : Prop :=
  ¬step.IsLine ∧ ∃ source, step.reading = .ok source ∧ ¬Clean source

section Close

variable {σ : Type} [Sink σ] [Sink.Lawful σ]

theorem hadError_close (step : Step) (sink : σ) :
    Sink.hadError (step.close sink) = true ↔ ¬step.IsLine ∧ Sink.hadError sink = true := by
  cases step <;> simp [close, IsLine]

@[simp]
theorem hadRuntimeError_close (step : Step) (sink : σ) :
    Sink.hadRuntimeError (step.close sink) = Sink.hadRuntimeError sink := by
  cases step <;> simp [close]

end Close

/-- A prompt line always has a source. -/
theorem not_isLine_of_reading {step : Step} {e : FileError} (h : step.reading = .error e) :
    ¬step.IsLine := by
  cases step with
  | line source => cases h
  | batch source => exact id
  | script file => exact id

theorem not_spoils_of_clean {step : Step} {source : String} (hRead : step.reading = .ok source)
    (hClean : Clean source) : ¬step.Spoils := by
  rintro ⟨-, source', hRead', hMistake⟩
  cases hRead.symm.trans hRead'
  exact hMistake hClean

theorem depth_execute (step : Step) (m : Machine) (p : List Stmt) :
    (step.execute m p).2.env.depth = m.env.depth := by
  cases step with
  | line source => exact m.depth_runLine p
  | batch source => exact m.depth_executeAll p
  | script file => exact m.depth_executeAll p

end Step

namespace Session

/-- Whether a mistake stands in the way of batches: one was left behind, and no prompt line
came since. -/
def Tainted (past : List Step) : Prop :=
  Since (fun _ step => step.Spoils) Step.IsLine past

variable {σ : Type} [Sink σ]

/-- Whether a step of the past ended in a failed run. -/
def FailedIn (start : Session σ) (past : List Step) : Prop :=
  Since (fun before step => ((start.after before).take step).1 = .ok .runtimeError)
    (fun _ => False) past

section Lawful

variable [Sink.Lawful σ]

/-! ## The flag of mistakes -/

theorem hadError_take (s : Session σ) (step : Step) :
    Sink.hadError (s.take step).2.sink = true ↔
      step.Spoils ∨ ¬step.IsLine ∧ Sink.hadError s.sink = true := by
  have hTaken := s.taken_take step
  generalize s.take step = r at hTaken ⊢
  cases hTaken with
  | unread hRead =>
      have hSpoils : ¬step.Spoils := by
        rintro ⟨-, source, hRead', -⟩
        cases hRead.symm.trans hRead'
      simp [hSpoils, Step.not_isLine_of_reading hRead]
  | @refused source hRead hMistake =>
      rw [Step.hadError_close, hadError_told]
      constructor
      · rintro ⟨hLine, hFlag | hMistake⟩
        · exact .inr ⟨hLine, hFlag⟩
        · exact .inl ⟨hLine, source, hRead, hMistake⟩
      · rintro (hSpoils | ⟨hLine, hFlag⟩)
        · exact ⟨hSpoils.1, hMistake⟩
        · exact ⟨hLine, .inl hFlag⟩
  | finished hRead hFlag hClean hRun =>
      simp [Step.hadError_close, Step.not_spoils_of_clean hRead hClean]
  | failed hRead hFlag hClean hRun =>
      simp [Step.hadError_close, Step.not_spoils_of_clean hRead hClean]

theorem hadError_after {start : Session σ} (h : Sink.hadError start.sink = false)
    (past : List Step) : Sink.hadError (start.after past).sink = true ↔ Tainted past := by
  induction past using List.reverseRecOn with
  | nil => simp [after, Tainted, not_since_nil, h]
  | append_singleton past step ih =>
      rw [after_concat, hadError_take, ih, Tainted, Tainted, since_concat]

/-! ## The flag of failed runs -/

theorem hadRuntimeError_take (s : Session σ) (step : Step) :
    Sink.hadRuntimeError (s.take step).2.sink = true ↔
      (s.take step).1 = .ok .runtimeError ∨ Sink.hadRuntimeError s.sink = true := by
  have hTaken := s.taken_take step
  generalize s.take step = r at hTaken ⊢
  cases hTaken with
  | unread hRead => simp
  | refused hRead hMistake => simp [told]
  | finished hRead hFlag hClean hRun => simp
  | failed hRead hFlag hClean hRun => simp

theorem hadRuntimeError_after {start : Session σ} (h : Sink.hadRuntimeError start.sink = false)
    (past : List Step) :
    Sink.hadRuntimeError (start.after past).sink = true ↔ start.FailedIn past := by
  induction past using List.reverseRecOn with
  | nil => simp [after, FailedIn, not_since_nil, h]
  | append_singleton past step ih =>
      rw [after_concat, hadRuntimeError_take, ih, FailedIn, FailedIn, since_concat]
      simp

/-! ## The depth -/

theorem depth_take (s : Session σ) (step : Step) :
    (s.take step).2.machine.env.depth = s.machine.env.depth := by
  have hTaken := s.taken_take step
  generalize s.take step = r at hTaken ⊢
  cases hTaken with
  | unread hRead => rfl
  | refused hRead hMistake => rfl
  | @finished source m hRead hFlag hClean hRun =>
      have hDepth := step.depth_execute s.machine (program source)
      rw [hRun] at hDepth
      exact hDepth
  | @failed source fault m hRead hFlag hClean hRun =>
      have hDepth := step.depth_execute s.machine (program source)
      rw [hRun] at hDepth
      exact hDepth

theorem depth_after (s : Session σ) (steps : List Step) :
    (s.after steps).machine.env.depth = s.machine.env.depth := by
  induction steps generalizing s with
  | nil => rfl
  | cons step steps ih => exact (ih _).trans (s.depth_take step)

end Lawful

/-! ## The next step -/

/-- What a session that began as `start` does with the next step after the past. -/
structure Orderly (start : Session σ) (past : List Step) (next : Step) : Prop where
  /-- Between steps there is one frame. -/
  depth : (start.after past).machine.env.depth = 1
  /-- The flag of failed runs is up exactly if a run has failed. -/
  failedFlag : Sink.hadRuntimeError (start.after past).sink = true ↔ start.FailedIn past
  /-- A file that gives no text changes nothing. -/
  unread : ∀ {e}, next.reading = .error e →
    (start.after past).take next = (.error e, start.after past)
  /-- A source is refused exactly for a mistake in it, or for one that stands in its way. -/
  refused_iff : ∀ {source}, next.reading = .ok source →
    (((start.after past).take next).1 = .ok .syntaxError ↔ ¬Clean source ∨ Tainted past)
  /-- A source that is refused leaves the bindings and the output alone, and the sink is told
  of the mistakes in it and nothing else. -/
  refused : ∀ {source}, next.reading = .ok source →
    ((start.after past).take next).1 = .ok .syntaxError →
    ((start.after past).take next).2.machine = (start.after past).machine ∧
      ((start.after past).take next).2.sink = next.close ((start.after past).told source)
  /-- Any other source is run. The sink is told of one failed run if the answer says so, and of
  nothing if the answer is success. -/
  ran : ∀ {source}, next.reading = .ok source →
    ((start.after past).take next).1 ≠ .ok .syntaxError →
    ((start.after past).take next).2.machine =
        (next.interpret (start.after past).machine (program source) (start.after past).sink).2.1 ∧
      ∃ runs : List RuntimeReport,
        ((start.after past).take next).2.sink =
            next.close (runs.foldl Sink.reportRuntime (start.after past).sink) ∧
        runs.length ≤ 1 ∧
        (((start.after past).take next).1 = .ok .runtimeError ↔ runs.length = 1) ∧
        (((start.after past).take next).1 = .ok .success ↔ runs = [])
  /-- A prompt line leaves the flag of mistakes down. -/
  lineFlag : next.IsLine → Sink.hadError ((start.after past).take next).2.sink = false

theorem orderly [Sink.Lawful σ] {sink : σ} (hFresh : Sink.Fresh sink) (output : Output)
    (past : List Step) (next : Step) : Orderly (new sink output) past next := by
  have hTainted : Sink.hadError ((new sink output).after past).sink = true ↔ Tainted past :=
    hadError_after hFresh.1 past
  refine ⟨depth_after _ past, hadRuntimeError_after hFresh.2 past,
    fun hRead => take_of_error hRead _, fun hRead => ?_, fun hRead hAnswer => ?_,
    fun hRead hAnswer => take_of_ran hRead hAnswer, fun hLine => ?_⟩
  · rw [← hTainted]
    exact take_eq_syntaxError_iff hRead _
  · rw [take_of_refused hRead hAnswer]
    exact ⟨rfl, rfl⟩
  · by_contra hFlag
    obtain hSpoils | ⟨hNot, -⟩ := (hadError_take _ next).1 (by simpa using hFlag)
    · exact hSpoils.1 hLine
    · exact hNot hLine

/-! ## Queues -/

theorem runtimeErrors_told (s : Session Queue) (source : String) :
    (s.told source).runtimeErrors = s.sink.runtimeErrors := by
  have hReports (q : Queue) (ds : List Diagnostic) :
      (Sink.reportAll q ds).runtimeErrors = q.runtimeErrors := by
    induction ds generalizing q with
    | nil => rfl
    | cons d ds ih => exact ih _
  rw [told, hReports, hReports]

theorem runtimeErrors_close (step : Step) (q : Queue) :
    (step.close q).runtimeErrors = q.runtimeErrors := by
  cases step <;> rfl

/-- In a queue the reports about runs can be counted: a step adds one if it fails, and none
otherwise. -/
theorem exists_runtimeErrors_take (s : Session Queue) (step : Step) :
    ∃ runs : List RuntimeReport,
      (s.take step).2.sink.runtimeErrors = s.sink.runtimeErrors ++ runs ∧ runs.length ≤ 1 ∧
      ((s.take step).1 = .ok .runtimeError ↔ runs.length = 1) := by
  have hTaken := s.taken_take step
  generalize s.take step = r at hTaken ⊢
  cases hTaken with
  | unread hRead => exact ⟨[], by simp, by simp, by simp⟩
  | refused hRead hMistake =>
      exact ⟨[], by rw [runtimeErrors_close, runtimeErrors_told, List.append_nil], by simp, by simp⟩
  | finished hRead hFlag hClean hRun =>
      exact ⟨[], by rw [runtimeErrors_close, List.append_nil], by simp, by simp⟩
  | @failed _ fault _ hRead hFlag hClean hRun =>
      exact ⟨[fault.report], by rw [runtimeErrors_close]; rfl, by simp, by simp⟩

/--
**Sessions over time.** A session that begins with a fresh lawful sink, such as a queue or a
terminal, does with every step what `Orderly` says, whatever came before: its answer, its
bindings, its output and its two flags are determined by which earlier steps had mistakes,
which were prompt lines, and which failed. Seen through a queue, a step adds one report about
a run exactly if it answers that the run has failed, and never more than one.
-/
theorem orderly_history (output : Output) (past : List Step) (next : Step) :
    (∀ {σ : Type} [Sink σ] [Sink.Lawful σ] {sink : σ}, Sink.Fresh sink →
      Orderly (new sink output) past next) ∧
    let s := (new ({} : Queue) output).after past
    ∃ runs : List RuntimeReport,
      (s.take next).2.sink.runtimeErrors = s.sink.runtimeErrors ++ runs ∧ runs.length ≤ 1 ∧
      ((s.take next).1 = .ok .runtimeError ↔ runs.length = 1) :=
  ⟨fun hFresh => orderly hFresh output past next, exists_runtimeErrors_take _ next⟩

/-- After the batch `@` and a script that is not there, `nil;` is refused though there is no
mistake in it, as a batch and as a prompt line, and the prompt line lowers the flag. -/
theorem orderly_history_tainted :
    let past : List Step := [.batch "@", .script (.error .notFound)]
    let s := (new ({} : Queue) .empty).after past
    Sink.Fresh ({} : Queue) ∧ Clean "nil;" ∧ Tainted past ∧
      (s.take (.batch "nil;")).1 = .ok .syntaxError ∧
      (s.take (.batch "nil;")).2.machine = s.machine ∧
      (s.take (.line "nil;")).1 = .ok .syntaxError ∧
      Sink.hadError (s.take (.line "nil;")).2.sink = false := by
  intro past s
  have hTokens : (Source.lex "nil;").tokens =
      [⟨.kwNil, "nil", none, 1⟩, ⟨.semicolon, ";", none, 1⟩] ++ [.endOfFile 1] := by cbv
  have hClean : Clean "nil;" ∧ program "nil;" = [.expression (.literal .nil)] :=
    Source.clean_of_written (by decide +kernel) hTokens ⟨Stmt.wellFormedAll_iff.2 (by decide), by
      simp [Stmt.marksAll, Stmt.marks, Expr.marks, Grammar.Mark.Fits, Grammar.IsLiteral]⟩
  have hStray : (Source.lex "@").diagnostics ≠ [] := by decide +kernel
  have hTainted : Tainted past :=
    ⟨[], .batch "@", [.script (.error .notFound)], rfl, ⟨id, "@", rfl, fun h => hStray h.1⟩, by
      simp [Step.IsLine]⟩
  have hBatch := (orderly_history .empty past (.batch "nil;")).1 Sink.fresh_queue
  have hLine := (orderly_history .empty past (.line "nil;")).1 Sink.fresh_queue
  have hRefused := (hBatch.refused_iff rfl).2 (.inr hTainted)
  exact ⟨Sink.fresh_queue, hClean.1, hTainted, hRefused, (hBatch.refused rfl hRefused).1,
    (hLine.refused_iff rfl).2 (.inr hTainted), hLine.lineFlag trivial⟩

end Session

end TinyScript
