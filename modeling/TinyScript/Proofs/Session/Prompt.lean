import TinyScript.Proofs.Session.History
import TinyScript.Session.Prompt

/-!
# The prompt, line by line

A conversation takes the lines of its input to the session, one after the other, up to the
first line that ends it: the exit command or a line that is no text. What it comes to is
what the session makes of these lines as prompt lines, and nothing else that happens in the
conversation has a part in it: the prompts go elsewhere, and what the lines print is only
moved out of the machine, where the session does not look at it. Since every prompt line
leaves the flag of mistakes down, a line is run exactly if there is no mistake in itself.

## Main results

* `Text.lines_lines`: how an input falls into lines.
* `Prompt.converse_eq`: a conversation hears its lines in order and is then ended.
* `Prompt.conversation_run`: what a conversation comes to.
-/

namespace TinyScript

open Source (Clean program)

/-! ## Lines -/

namespace Text

/-- How bytes fall into lines. A line ends at a line feed and loses one carriage return before
it; bytes after the last line feed are a line as they are. -/
inductive Lines : List UInt8 → List (List UInt8) → Prop
  | nil : Lines [] []
  | last {line : List UInt8} (hSome : line ≠ []) (hInner : lineFeed ∉ line) : Lines line [line]
  | bare {line rest : List UInt8} {more : List (List UInt8)} (hInner : lineFeed ∉ line)
    (hEnd : line.getLast? ≠ some carriageReturn) (hRest : Lines rest more) :
    Lines (line ++ lineFeed :: rest) (line :: more)
  | returned {line rest : List UInt8} {more : List (List UInt8)} (hInner : lineFeed ∉ line)
    (hRest : Lines rest more) :
    Lines (line ++ carriageReturn :: lineFeed :: rest) (line :: more)

theorem lines_of_not_mem {line : List UInt8} (h : lineFeed ∉ line) :
    lines line = if line = [] then [] else [line] := by
  rw [lines, List.splitOn_eq_singleton h]
  cases line <;> rfl

theorem lines_append_lineFeed {line : List UInt8} (h : lineFeed ∉ line) (rest : List UInt8) :
    lines (line ++ lineFeed :: rest) = dropCarriageReturn line :: lines rest := by
  have hSplit : (line ++ lineFeed :: rest).splitOn lineFeed = line :: rest.splitOn lineFeed := by
    refine List.splitOnP_append_cons_of_forall_mem (fun byte hByte => ?_) lineFeed (by simp) rest
    exact beq_false_of_ne fun hEq => h (hEq ▸ hByte)
  rw [lines, lines, hSplit]
  cases hParts : rest.splitOn lineFeed with
  | nil => exact absurd hParts (List.splitOn_ne_nil _ _)
  | cons part parts =>
      simp only [List.dropLast_cons_cons, List.map_cons, List.getLast?_cons_cons]
      split <;> rfl

/-- The lines of a stream are its lines. -/
theorem lines_lines (bytes : List UInt8) : Lines bytes (lines bytes) := by
  obtain ⟨n, hLength⟩ : ∃ n, bytes.length = n := ⟨_, rfl⟩
  induction n using Nat.strongRecOn generalizing bytes with
  | ind n ih =>
      by_cases hMem : lineFeed ∈ bytes
      · obtain ⟨line, rest, rfl, hInner⟩ := List.eq_append_cons_of_mem hMem
        have hRest : Lines rest (lines rest) := by
          refine ih rest.length ?_ rest rfl
          rw [← hLength, List.length_append, List.length_cons]
          omega
        rw [lines_append_lineFeed hInner, dropCarriageReturn]
        by_cases hReturn : line.getLast? = some carriageReturn
        · obtain ⟨front, rfl⟩ := List.getLast?_eq_some_iff.1 hReturn
          have hFront : lineFeed ∉ front := fun h => hInner (List.mem_append_left _ h)
          rw [if_pos hReturn, List.dropLast_concat, List.append_assoc]
          exact .returned hFront hRest
        · rw [if_neg hReturn]
          exact .bare hInner hReturn hRest
      · rw [lines_of_not_mem hMem]
        split
        · next hNil =>
            rw [hNil]
            exact .nil
        · next hSome => exact .last hSome hMem

end Text

/-! ## Output moved away -/

theorem Output.text_append_clear (o : Output) (text : String) :
    o.text ++ (o.clear.append text).text = (o.append text).text := by
  cases o <;> simp [Output.text, Output.clear, Output.append, Output.empty]

namespace Session

variable {σ : Type} [Sink σ]

/-- The session with what it printed taken away. -/
def cleared (s : Session σ) : Session σ :=
  { s with machine := { s.machine with output := s.machine.output.clear } }

/-- Steps lead a cleared session to the same bindings and the same sink, and they print the same
after what was taken away. -/
theorem after_cleared (s : Session σ) (steps : List Step) :
    (s.cleared.after steps).machine.env = (s.after steps).machine.env ∧
      (s.cleared.after steps).sink = (s.after steps).sink ∧
      s.machine.output.text ++ (s.cleared.after steps).machine.output.text =
        (s.after steps).machine.output.text := by
  obtain ⟨⟨env, o⟩, sink⟩ := s
  obtain ⟨env', text, sink', hAfter⟩ := exists_after_eq env sink steps
  rw [cleared, hAfter, hAfter]
  exact ⟨rfl, rfl, o.text_append_clear text⟩

theorem answers_cleared (s : Session σ) (steps : List Step) :
    s.cleared.answers steps = s.answers steps := by
  obtain ⟨⟨env, o⟩, sink⟩ := s
  obtain ⟨list, hAnswers⟩ := exists_answers_eq env sink steps
  rw [cleared, hAnswers, hAnswers]

/-! ## Prompt lines -/

/-- Whether a session runs a prompt line exactly if there is no mistake in it. -/
def RunsIfClean (s : Session σ) (source : String) : Prop :=
  ((s.runLine source).1 = .syntaxError ↔ ¬Clean source) ∧
    (s.runLine source).2.machine =
      if Clean source then (s.machine.interpretLine (program source) s.sink).2.1 else s.machine

variable [Sink.Lawful σ]

theorem runsIfClean {s : Session σ} (h : Sink.hadError s.sink = false) (source : String) :
    s.RunsIfClean source := by
  have hRead : (Step.line source).reading = .ok source := rfl
  have hAnswer : (s.take (.line source)).1 = .ok .syntaxError ↔ ¬Clean source := by
    rw [take_eq_syntaxError_iff hRead, h]
    simp
  refine ⟨by simpa [take] using hAnswer, ?_⟩
  by_cases hClean : Clean source
  · rw [if_pos hClean]
    exact (take_of_ran hRead fun hRefused => hAnswer.1 hRefused hClean).1
  · have hRefused := take_of_refused hRead (hAnswer.2 hClean)
    rw [if_neg hClean]
    exact congrArg (·.machine) hRefused

/-- Prompt lines leave no mistake behind. -/
theorem hadError_after_lines {s : Session σ} (h : Sink.hadError s.sink = false)
    (sources : List String) : Sink.hadError (s.after (sources.map .line)).sink = false := by
  rw [← Bool.not_eq_true, hadError_after h]
  rintro ⟨before, step, later, hSplit, hSpoils, -⟩
  -- Only a batch or a script leaves a mistake behind.
  have hMem : step ∈ sources.map Step.line := by simp [hSplit]
  obtain ⟨source, -, rfl⟩ := List.mem_map.1 hMem
  exact hSpoils.1 trivial

end Session

/-! ## Conversations -/

namespace Prompt

/-- Whether a conversation goes on after a line: it is a text, and not the exit command. -/
def goesOn (line : List UInt8) : Bool :=
  match Text.decode? line with
  | some source => Text.trim source ≠ exitCommand
  | none => false

/-- The texts of the lines before the first one that ends the conversation. -/
def heard (lines : List (List UInt8)) : List String :=
  (lines.takeWhile goesOn).filterMap Text.decode?

/-- The first line that ends the conversation, if there is one. -/
def endedBy? (lines : List (List UInt8)) : Option (List UInt8) :=
  lines.find? fun line => !goesOn line

/-- The result of a conversation that is ended by the given line, or at the end of the input. -/
def verdict : Option (List UInt8) → Except PromptError Unit
  | some line => if Text.decode? line = none then .error .notText else .ok ()
  | none => .ok ()

theorem heard_cons {line : List UInt8} {source : String} (hText : Text.decode? line = some source)
    (hOn : goesOn line = true) (rest : List (List UInt8)) :
    heard (line :: rest) = source :: heard rest := by
  rw [heard, List.takeWhile_cons_of_pos hOn, List.filterMap_cons_some hText]
  rfl

theorem endedBy?_cons {line : List UInt8} (hOn : goesOn line = true) (rest : List (List UInt8)) :
    endedBy? (line :: rest) = endedBy? rest := by
  simp [endedBy?, hOn]

theorem heard_of_not_goesOn {line : List UInt8} (hOn : goesOn line = false)
    (rest : List (List UInt8)) :
    heard (line :: rest) = [] ∧ endedBy? (line :: rest) = some line := by
  simp [heard, endedBy?, hOn]

namespace State

variable {σ : Type}

/-- The state after a prompt. -/
def asked (st : State σ) : State σ :=
  { st with events := .prompted mark :: st.events }

theorem write_of_room {st : State σ} (h : st.room = none) (text : String) :
    st.write text = ({ st with events := .prompted text :: st.events }, .ok ()) := by
  obtain ⟨session, room, events, outcomes⟩ := st
  cases h
  rfl

section Asked

variable (st : State σ) (result : Except PromptError Unit) (reachedEnd : Bool)

theorem promptText_asked :
    (st.asked.finish result reachedEnd).promptText =
      (st.finish result reachedEnd).promptText ++ mark := by
  simp [asked, finish, Record.promptText, String.join_append]

theorem printedText_asked :
    (st.asked.finish result reachedEnd).printedText =
      (st.finish result reachedEnd).printedText := by
  simp [asked, finish, Record.printedText, String.join_append]

end Asked

variable [Sink σ]

/-- The state after a prompt and a line. -/
def hear (st : State σ) (source : String) : State σ :=
  st.asked.absorb (st.session.runLine source).1 (st.session.runLine source).2

end State

variable {σ : Type} [Sink σ]

/-- With room for all prompts, a conversation hears its lines in order and is then ended. -/
theorem converse_eq {st : State σ} (hRoom : st.room = none) (lines : List (List UInt8)) :
    converse st lines =
      ((heard lines).foldl State.hear st).asked.finish (verdict (endedBy? lines))
        (endedBy? lines).isNone := by
  induction lines generalizing st with
  | nil =>
      rw [converse, State.write_of_room hRoom]
      rfl
  | cons line rest ih =>
      rw [converse, State.write_of_room hRoom]
      cases hText : Text.decode? line with
      | none =>
          have hOn : goesOn line = false := by simp [goesOn, hText]
          rw [(heard_of_not_goesOn hOn rest).1, (heard_of_not_goesOn hOn rest).2]
          simp [respond, hText, verdict, State.asked]
      | some source =>
          by_cases hExit : Text.trim source = exitCommand
          · have hOn : goesOn line = false := by simp [goesOn, hText, hExit]
            rw [(heard_of_not_goesOn hOn rest).1, (heard_of_not_goesOn hOn rest).2]
            simp [respond, hText, hExit, verdict, State.asked]
          · have hOn : goesOn line = true := by simp [goesOn, hText, hExit]
            simp only [respond, hText, if_neg hExit]
            rw [heard_cons hText hOn, endedBy?_cons hOn, List.foldl_cons]
            exact ih hRoom

/-! ## What is written -/

section Written

variable (st : State σ) (result : Except PromptError Unit) (reachedEnd : Bool)

theorem promptText_hear (source : String) :
    ((st.hear source).finish result reachedEnd).promptText =
      (st.finish result reachedEnd).promptText ++ mark := by
  simp [State.hear, State.asked, State.absorb, State.finish, Record.promptText, String.join_append]

theorem printedText_hear (source : String) :
    ((st.hear source).finish result reachedEnd).printedText =
      (st.finish result reachedEnd).printedText ++
        (st.session.runLine source).2.machine.output.text := by
  simp [State.hear, State.asked, State.absorb, State.finish, Record.printedText, String.join_append]

/-- There is one prompt for every line that is heard. -/
theorem promptText_foldl_hear (sources : List String) :
    ((sources.foldl State.hear st).finish result reachedEnd).promptText =
      (st.finish result reachedEnd).promptText ++
        String.join (List.replicate sources.length mark) := by
  induction sources generalizing st with
  | nil => simp
  | cons source sources ih =>
      rw [List.foldl_cons, ih, promptText_hear, List.length_cons, List.replicate_succ,
        String.join_cons, String.append_assoc]

/-- Hearing lines comes to the bindings and the sink of a session that takes them as prompt lines,
and what such a session prints is what was printed on the way and what is left in the machine. -/
theorem foldl_hear (sources : List String) :
    let heard := sources.foldl State.hear st
    let t := st.session.after (sources.map .line)
    heard.session.machine.env = t.machine.env ∧ heard.session.sink = t.sink ∧
      (heard.finish result reachedEnd).printedText ++ heard.session.machine.output.text =
        (st.finish result reachedEnd).printedText ++ t.machine.output.text := by
  induction sources generalizing st with
  | nil => exact ⟨rfl, rfl, rfl⟩
  | cons source sources ih =>
      -- The session is cleared after the first line and before the others, which do not notice.
      obtain ⟨hEnv, hSink, hText⟩ := ih (st.hear source)
      obtain ⟨hEnv', hSink', hText'⟩ :=
        (st.session.runLine source).2.after_cleared (sources.map .line)
      refine ⟨hEnv.trans hEnv', hSink.trans hSink', hText.trans ?_⟩
      rw [printedText_hear, String.append_assoc]
      exact congrArg _ hText'

theorem outcomes_foldl_hear (sources : List String) :
    (sources.foldl State.hear st).outcomes.reverse.map .ok =
      st.outcomes.reverse.map .ok ++ st.session.answers (sources.map .line) := by
  induction sources generalizing st with
  | nil => simp [Session.answers]
  | cons source sources ih =>
      have hFirst : (st.hear source).outcomes.reverse.map Except.ok =
          st.outcomes.reverse.map Except.ok ++ [(st.session.take (.line source)).1] := by
        simp [State.hear, State.absorb, State.asked, Session.take]
      have hRest : (st.hear source).session.answers (sources.map .line) =
          (st.session.take (.line source)).2.answers (sources.map .line) :=
        (st.session.runLine source).2.answers_cleared _
      rw [List.foldl_cons, ih, hFirst, hRest, List.append_assoc]
      rfl

end Written

/-! ## What a conversation comes to -/

/-- What a conversation of a session over lines comes to. -/
structure Conversation (s : Session σ) (lines : List (List UInt8)) (record : Record σ) : Prop where
  /-- The bindings are those after the lines that are heard, taken as prompt lines. -/
  env : record.session.machine.env = (s.after ((heard lines).map .line)).machine.env
  /-- The reports are those about these lines. -/
  sink : record.session.sink = (s.after ((heard lines).map .line)).sink
  /-- The output is that of these lines, moved out of the machine after each of them. -/
  output : record.printedText ++ record.session.machine.output.text =
    (s.after ((heard lines).map .line)).machine.output.text
  outcomes : record.outcomes.map .ok = s.answers ((heard lines).map .line)
  /-- Each of these lines is run exactly if there is no mistake in itself. -/
  runs : ∀ before source later, heard lines = before ++ source :: later →
    (s.after (before.map .line)).RunsIfClean source
  /-- There is a prompt before each of these lines and one more. -/
  promptText : record.promptText =
    banner ++ String.join (List.replicate ((heard lines).length + 1) mark)
  /-- The conversation breaks off exactly if it is ended by a line that is no text. -/
  broken_iff : (∃ e, record.result = .error e) ↔
    ∃ line, endedBy? lines = some line ∧ Text.decode? line = none
  broken : ∀ e, record.result = .error e → e = .notText
  reachedEnd_iff : record.reachedEnd = true ↔ endedBy? lines = none

theorem verdict_eq_error_iff (ended : Option (List UInt8)) :
    (∃ e, verdict ended = .error e) ↔ ∃ line, ended = some line ∧ Text.decode? line = none := by
  cases ended with
  | none => simp [verdict]
  | some line => by_cases h : Text.decode? line = none <;> simp [verdict, h]

theorem eq_notText_of_verdict {ended : Option (List UInt8)} {e : PromptError}
    (h : verdict ended = .error e) : e = .notText := by
  cases ended with
  | none => cases h
  | some line => by_cases hText : Text.decode? line = none <;> simp_all [verdict]

variable [Sink.Lawful σ] {s : Session σ}

/-- What a conversation comes to from its first prompt on. -/
theorem conversation_converse (hFlag : Sink.hadError s.sink = false) (lines : List (List UInt8)) :
    Conversation s lines (converse ⟨s, none, [.prompted banner], []⟩ lines) := by
  let start : State σ := ⟨s, none, [.prompted banner], []⟩
  have hBanner (result : Except PromptError Unit) (reachedEnd : Bool) :
      (start.finish result reachedEnd).promptText = banner := by
    simp [start, State.finish, Record.promptText]
  have hNothing (result : Except PromptError Unit) (reachedEnd : Bool) :
      (start.finish result reachedEnd).printedText = "" := by
    simp [start, State.finish, Record.printedText]
  obtain ⟨hEnv, hSink, hText⟩ :=
    foldl_hear start (verdict (endedBy? lines)) (endedBy? lines).isNone (heard lines)
  rw [converse_eq rfl]
  refine ⟨hEnv, hSink, ?_, outcomes_foldl_hear start (heard lines), ?_, ?_,
    verdict_eq_error_iff _, ?_, Option.isNone_iff_eq_none⟩
  · rw [State.printedText_asked]
    refine hText.trans ?_
    rw [hNothing, String.empty_append]
  · intro before source later hSplit
    exact Session.runsIfClean (Session.hadError_after_lines hFlag before) source
  · have hOne : String.join [mark] = mark := by simp
    rw [State.promptText_asked, promptText_foldl_hear, hBanner, List.replicate_succ',
      String.join_append, hOne, String.append_assoc]
  · intro e he
    exact eq_notText_of_verdict he

/--
**The prompt, line by line.** Let the flag of mistakes of a session be down, as it is in a
fresh session, and let there be room for all prompts. Then whatever bytes are put in, they
fall into lines as `Text.Lines` says, and the conversation comes to what the session makes of
the lines before the exit command or the first line that is no text, taken as prompt lines
one after the other.
-/
theorem conversation_run (hFlag : Sink.hadError s.sink = false) (input : List UInt8) :
    Text.Lines input (Text.lines input) ∧
      Conversation s (Text.lines input) (run s input none) := by
  refine ⟨Text.lines_lines input, ?_⟩
  rw [run, State.write_of_room rfl]
  exact conversation_converse hFlag _

/-- There is a mistake in the first line, `@` with a carriage return behind it. The second line,
which is empty, is run all the same, and the third is the exit command after a blank. -/
theorem conversation_run_exit :
    let s := Session.new ({} : Queue) .empty
    let input : List UInt8 := [64, 13, 10, 10, 32, 35, 101, 120, 105, 116, 10, 64]
    let record := run s input none
    Sink.hadError s.sink = false ∧ heard (Text.lines input) = ["@", ""] ∧
      (s.runLine "@").1 = .syntaxError ∧ ((s.runLine "@").2.runLine "").1 ≠ .syntaxError ∧
      record.promptText = banner ++ "> > > " ∧ (¬∃ e, record.result = .error e) ∧
      record.reachedEnd = false := by
  intro s input record
  have hFlag : Sink.hadError s.sink = false := rfl
  have hHeard : heard (Text.lines input) = ["@", ""] := by decide +kernel
  have hEnded : endedBy? (Text.lines input) = some [32, 35, 101, 120, 105, 116] := by
    decide +kernel
  have hExit : Text.decode? [32, 35, 101, 120, 105, 116] ≠ none := by decide +kernel
  have hStray : (Source.lex "@").diagnostics ≠ [] := by decide +kernel
  have hTokens : (Source.lex "").tokens = [] ++ [.endOfFile 1] := by cbv
  have hNothing : Grammar.Written [] [] := ⟨trivial, .nil⟩
  have hClean : Clean "" := (Source.clean_of_written (by decide +kernel) hTokens hNothing).1
  have hRun : Conversation s (Text.lines input) record := (conversation_run hFlag input).2
  have hFirst := hRun.runs [] "@" [""] hHeard
  have hSecond := hRun.runs ["@"] "" [] hHeard
  refine ⟨hFlag, hHeard, hFirst.1.2 fun h => hStray h.1, fun h => hSecond.1.1 h hClean, ?_, ?_, ?_⟩
  · rw [hRun.promptText, hHeard]
    rfl
  · rw [hRun.broken_iff, hEnded]
    rintro ⟨line, hLine, hText⟩
    cases hLine
    exact hExit hText
  · rw [← Bool.not_eq_true, hRun.reachedEnd_iff, hEnded]
    simp

end Prompt

end TinyScript
