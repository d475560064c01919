import TinyScript.Proofs.Grammar.Lines
import TinyScript.Proofs.Machine.Lines
import TinyScript.Proofs.Session.Steps

/-!
# Lines do not matter

Two sources may have the same tokens on different lines. Put on line zero, all of them, the
two have one and the same list of tokens; and reading and running do the same on line zero
as on their own lines, only that what they report moves along. So from the same session both
sources have the same outcome and leave the same machine, and the sink is told the same of
both but for the lines.

## Main results

* `Source.SameButLines.diagnostics`, `Source.SameButLines.program`: what is read.
* `Source.SameButLines.executeAll`, `Source.SameButLines.runLine`: what is run.
* `Session.run_of_sameButLines`: what a session does.
-/

namespace TinyScript

/-! ## The same but for lines -/

/-- Whether two tokens differ in their lines at most. -/
def Token.SameButLine (t u : Token) : Prop :=
  t.kind = u.kind ∧ t.lexeme = u.lexeme ∧ t.payload = u.payload

/-- Whether two diagnostics differ in their lines at most. -/
def Diagnostic.SameButLine (d e : Diagnostic) : Prop :=
  d.code = e.code ∧ d.place = e.place ∧ d.message = e.message

/-- Whether two reports about runs differ in their lines at most. -/
def RuntimeReport.SameButLine (r q : RuntimeReport) : Prop :=
  r.lexeme = q.lexeme ∧ r.message = q.message

/-- The line on which everything is compared. -/
def lineZero (_ : Nat) : Nat := 0

theorem Token.sameButLine_iff (t u : Token) :
    t.SameButLine u ↔ t.mapLine lineZero = u.mapLine lineZero := by
  simp [SameButLine, mapLine, lineZero]

theorem Diagnostic.sameButLine_iff (d e : Diagnostic) :
    d.SameButLine e ↔ d.mapLine lineZero = e.mapLine lineZero := by
  simp [SameButLine, mapLine, lineZero]

/-- Lists are related member by member by a comparison of images if their images are equal. -/
theorem forall₂_iff_map_eq {α β : Type} {R : α → α → Prop} {f : α → β}
    (h : ∀ x y, R x y ↔ f x = f y) {l l' : List α} :
    List.Forall₂ R l l' ↔ l.map f = l'.map f := by
  have hRelated : R = fun x y => f x = f y := funext fun x => funext fun y => propext (h x y)
  rw [← List.forall₂_eq_eq_eq, List.forall₂_map_left_iff, List.forall₂_map_right_iff, hRelated]

theorem Fault.sameButLine_report {f f' : Fault}
    (h : f.mapLine lineZero = f'.mapLine lineZero) : f.report.SameButLine f'.report := by
  have hCause : f.cause = f'.cause := congrArg (·.cause) h
  have hLexeme : f.token.lexeme = f'.token.lexeme := congrArg (·.token.lexeme) h
  exact ⟨hLexeme, congrArg Cause.message hCause⟩

namespace Source

/-- Two sources without a mistake in their characters, whose tokens differ in their lines at
most. -/
structure SameButLines (a b : String) : Prop where
  lexed : (lex a).diagnostics = []
  lexed' : (lex b).diagnostics = []
  tokens : List.Forall₂ Token.SameButLine (lex a).tokens (lex b).tokens

namespace SameButLines

variable {a b : String} (h : SameButLines a b)
include h

/-! ## Reading -/

/-- On line zero the two sources are read as one. -/
theorem parse_eq :
    Grammar.parse ((lex a).tokens.map (Token.mapLine lineZero)) =
      Grammar.parse ((lex b).tokens.map (Token.mapLine lineZero)) :=
  congrArg Grammar.parse ((forall₂_iff_map_eq Token.sameButLine_iff).1 h.tokens)

/-- The mistakes in the two sources are the same but for their lines. -/
theorem diagnostics :
    List.Forall₂ Diagnostic.SameButLine (Grammar.parse (lex a).tokens).diagnostics
      (Grammar.parse (lex b).tokens).diagnostics := by
  have hParse := congrArg Grammar.Parsed.diagnostics h.parse_eq
  rw [Grammar.parse_mapLine, Grammar.parse_mapLine] at hParse
  exact (forall₂_iff_map_eq Diagnostic.sameButLine_iff).2 hParse

/-- The programs of the two sources are the same on line zero. -/
theorem program :
    Stmt.mapLineAll lineZero (Source.program a) = Stmt.mapLineAll lineZero (Source.program b) := by
  have hParse := congrArg Grammar.Parsed.program h.parse_eq
  rw [Grammar.parse_mapLine, Grammar.parse_mapLine] at hParse
  exact hParse

/-! ## Running -/

theorem executeAll (m : Machine) :
    (m.executeAll (Source.program a)).mapLine lineZero =
      (m.executeAll (Source.program b)).mapLine lineZero := by
  rw [← Machine.executeAll_mapLineAll _ m (wellFormedAll_program a), h.program,
    Machine.executeAll_mapLineAll _ m (wellFormedAll_program b)]

theorem runLine (m : Machine) :
    (m.runLine (Source.program a)).mapLine lineZero =
      (m.runLine (Source.program b)).mapLine lineZero := by
  rw [← Machine.runLine_mapLineAll _ m (wellFormedAll_program a), h.program,
    Machine.runLine_mapLineAll _ m (wellFormedAll_program b)]

end SameButLines

end Source

namespace Session

open Source (SameButLines)

variable {σ : Type} [Sink σ]

/--
How two sources fare alike in a session. They have the same outcome and leave the same
machine. The sink is told of the mistakes in the source, then of a failed run if there was
one, and is closed; the two reports about runs differ in their lines at most.
-/
structure EndsAlike (s : Session σ) (close : σ → σ) (a b : String)
    (r r' : Outcome × Session σ) : Prop where
  outcome : r.1 = r'.1
  machine : r.2.machine = r'.2.machine
  told : ∃ runs runs' : List RuntimeReport,
    r.2.sink = close (runs.foldl Sink.reportRuntime (s.told a)) ∧
    r'.2.sink = close (runs'.foldl Sink.reportRuntime (s.told b)) ∧
    List.Forall₂ RuntimeReport.SameButLine runs runs' ∧
    runs.length ≤ 1 ∧ (r.1 = .runtimeError ↔ runs.length = 1)

variable {a b : String}

/-- Two runs that are the same on line zero end alike. -/
theorem endsAlike_ended (s : Session σ) {r r' : Run Machine Unit}
    (h : r.mapLine lineZero = r'.mapLine lineZero) :
    EndsAlike s id a b (ended r (s.told a)) (ended r' (s.told b)) := by
  obtain ⟨result, m⟩ := r
  obtain ⟨result', m'⟩ := r'
  have hResult : result.mapError (Fault.mapLine lineZero) =
      result'.mapError (Fault.mapLine lineZero) := congrArg Prod.fst h
  have hMachine : m = m' := congrArg Prod.snd h
  cases result with
  | ok _ =>
      cases result' with
      | error f => cases hResult
      | ok _ =>
          rw [ended_ok, ended_ok]
          exact ⟨rfl, hMachine, [], [], rfl, rfl, .nil, by simp, by simp⟩
  | error f =>
      cases result' with
      | ok _ => cases hResult
      | error f' =>
          have hReport := Fault.sameButLine_report (Except.error.inj hResult)
          rw [ended_error, ended_error]
          exact ⟨rfl, hMachine, [f.report], [f'.report], rfl, rfl, .cons hReport .nil, by simp,
            by simp⟩

variable [Sink.Lawful σ]

/-- There are as many mistakes in the one source as in the other, so the flag of mistakes is up
after both or after neither. -/
theorem hadError_told_of_sameButLines (s : Session σ) (h : SameButLines a b) :
    Sink.hadError (s.told a) = Sink.hadError (s.told b) := by
  have hEmpty : (Grammar.parse (Source.lex a).tokens).diagnostics.isEmpty =
      (Grammar.parse (Source.lex b).tokens).diagnostics.isEmpty := by
    rw [Bool.eq_iff_iff, List.isEmpty_iff_length_eq_zero, List.isEmpty_iff_length_eq_zero,
      h.diagnostics.length_eq]
  rw [told, h.lexed, Sink.hadError_reportAll, hEmpty, ← Sink.hadError_reportAll, told, h.lexed']

theorem endsAlike_settled (s : Session σ) (h : SameButLines a b) {r r' : Run Machine Unit}
    (hRun : r.mapLine lineZero = r'.mapLine lineZero) :
    EndsAlike s id a b (s.settled a r) (s.settled b r') := by
  rw [settled, settled, s.hadError_told_of_sameButLines h]
  split
  · exact ⟨rfl, rfl, [], [], rfl, rfl, .nil, by simp, by simp⟩
  · exact s.endsAlike_ended hRun

/--
**Lines do not matter.** Let two sources have the same tokens but for their lines, and no
mistake in their characters. Then the mistakes in them are the same but for their lines, in
the same order; and from the same session, over any lawful sink, they have the same
outcome and leave the same machine, that is, the same bindings and printed text. A report
about a failed run is the same but for its line. All this holds of batches and of prompt
lines.
-/
theorem run_of_sameButLines (s : Session σ) (h : SameButLines a b) :
    List.Forall₂ Diagnostic.SameButLine (Grammar.parse (Source.lex a).tokens).diagnostics
      (Grammar.parse (Source.lex b).tokens).diagnostics ∧
    EndsAlike s id a b (s.run a) (s.run b) ∧
    EndsAlike s Sink.resetErrors a b (s.runLine a) (s.runLine b) := by
  refine ⟨h.diagnostics, ?_, ?_⟩
  · rw [run_eq, run_eq]
    exact s.endsAlike_settled h (h.executeAll s.machine)
  · obtain ⟨hOutcome, hMachine, runs, runs', hSink, hSink', hRuns⟩ :=
      s.endsAlike_settled h (h.runLine s.machine)
    rw [runLine_eq, runLine_eq]
    exact ⟨hOutcome, hMachine, runs, runs', congrArg Sink.resetErrors hSink,
      congrArg Sink.resetErrors hSink', hRuns⟩

/-- An unknown name fails on line one and, with line feeds put in, on line two. -/
theorem run_of_sameButLines_unknown :
    let s := new ({} : Queue) .empty
    let a := "x;"
    let b := "\nx\n;"
    SameButLines a b ∧ (Source.lex a).tokens ≠ (Source.lex b).tokens ∧
      (s.run a).1 = .runtimeError ∧ (s.run b).1 = .runtimeError ∧
      (s.run a).2.machine = (s.run b).2.machine ∧
      (s.runLine a).2.machine = (s.runLine b).2.machine := by
  intro s a b
  have hTokens : (Source.lex a).tokens =
      [⟨.identifier, "x", none, 1⟩, ⟨.semicolon, ";", none, 1⟩] ++ [.endOfFile 1] := by cbv
  have hTokens' : (Source.lex b).tokens =
      [⟨.identifier, "x", none, 2⟩, ⟨.semicolon, ";", none, 3⟩] ++ [.endOfFile 3] := by cbv
  have hSame : SameButLines a b := by
    refine ⟨by decide +kernel, by decide +kernel, ?_⟩
    rw [hTokens, hTokens']
    simp [Token.SameButLine, Token.endOfFile]
  have hProgram : Source.Clean a ∧ Source.program a =
      [.expression (.variable ⟨.identifier, "x", none, 1⟩)] :=
    Source.clean_of_written hSame.lexed hTokens ⟨Stmt.wellFormedAll_iff.2 (by decide), by
      simp [Stmt.marksAll, Stmt.marks, Expr.marks, Grammar.Mark.Fits]⟩
  have hFailed : (s.run a).1 = .runtimeError := by
    rw [run_of_clean rfl hProgram.1, hProgram.2]
    rfl
  obtain ⟨-, hRun, hLine⟩ := run_of_sameButLines s hSame
  refine ⟨hSame, ?_, hFailed, hRun.outcome ▸ hFailed, hRun.machine, hLine.machine⟩
  rw [hTokens, hTokens']
  simp

end Session

end TinyScript
