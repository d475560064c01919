import TinyScript.Proofs.Grammar.Written
import TinyScript.Proofs.Machine.Faults
import TinyScript.Proofs.Source.Tiling
import TinyScript.Session.Basic

/-!
# What a session does with a source

A session reads a source, hands every mistake to its sink and then, if the flag of
mistakes is down, runs the program. `Session.told` is the sink once all mistakes have been
handed over, and `Session.settled` is what becomes of the session once it is known how the
program runs. Batches and prompt lines differ only in how they run the program.

## Main results

* `Session.run_eq`, `Session.runLine_eq`: batches and prompt lines.
* `Source.clean_of_written`: sources that write out a program.
-/

namespace TinyScript

namespace Source

/-- The program that a source is read as. -/
def program (source : String) : List Stmt :=
  (Grammar.parse (lex source).tokens).program

theorem wellFormedAll_program (source : String) : Stmt.WellFormedAll (program source) :=
  Stmt.wellFormedAll_iff.2 (Grammar.wellFormed_program _)

/-- Whether no mistake is found in a source. -/
def Clean (source : String) : Prop :=
  (lex source).diagnostics = [] ∧ (Grammar.parse (lex source).tokens).diagnostics = []

instance (source : String) : Decidable (Clean source) :=
  inferInstanceAs (Decidable (_ ∧ _))

/-- The end mark of a source is its last token. -/
theorem beforeEnd_lex (source : String) :
    Grammar.beforeEnd (lex source).tokens = (lex source).tokens.dropLast := by
  rw [tokens_lex, List.dropLast_concat, Grammar.beforeEnd, List.takeWhile_append_of_pos]
  · simp [Token.endOfFile]
  · intro t ht
    simpa using (lexeme_of_mem_filterMap ht).kind_ne_endOfFile

/-- A source whose tokens write out a program is read as that program, without a mistake. -/
theorem clean_of_written {source : String} {p : List Stmt} {ts : List Token} {line : Nat}
    (hLex : (lex source).diagnostics = []) (hTokens : (lex source).tokens = ts ++ [.endOfFile line])
    (h : Grammar.Written p ts) : Clean source ∧ program source = p := by
  have hParse : Grammar.parse (lex source).tokens = ⟨p, []⟩ := by
    rw [hTokens, h.parse_append, Grammar.parse_of_beforeEnd_eq_nil rfl, List.append_nil]
  exact ⟨⟨hLex, by rw [hParse]⟩, by rw [program, hParse]⟩

end Source

namespace Session

open Source (Clean program)

variable {σ : Type} [Sink σ]

/-- The sink of a session after all mistakes in a source. -/
def told (s : Session σ) (source : String) : σ :=
  Sink.reportAll (Sink.reportAll s.sink (Source.lex source).diagnostics)
    (Grammar.parse (Source.lex source).tokens).diagnostics

theorem told_of_clean (s : Session σ) {source : String} (h : Clean source) :
    s.told source = s.sink := by
  rw [told, h.1, h.2]
  rfl

/-- What becomes of a session with a run. -/
def ended (r : Run Machine Unit) (sink : σ) : Outcome × Session σ :=
  match r with
  | (.ok _, m) => (.success, ⟨m, sink⟩)
  | (.error fault, m) => (.runtimeError, ⟨m, Sink.reportRuntime sink fault.report⟩)

@[simp]
theorem ended_ok (u : Unit) (m : Machine) (sink : σ) :
    ended (.ok u, m) sink = (.success, ⟨m, sink⟩) :=
  rfl

@[simp]
theorem ended_error (fault : Fault) (m : Machine) (sink : σ) :
    ended (.error fault, m) sink = (.runtimeError, ⟨m, Sink.reportRuntime sink fault.report⟩) :=
  rfl

/-- What becomes of a session with a source that would run as `r`: nothing runs while the flag of
mistakes is up. -/
def settled (s : Session σ) (source : String) (r : Run Machine Unit) : Outcome × Session σ :=
  if Sink.hadError (s.told source) then (.syntaxError, { s with sink := s.told source })
  else ended r (s.told source)

theorem runWith_eq {run : Machine → List Stmt → σ → Verdict × Machine × σ}
    {execute : Machine → List Stmt → Run Machine Unit}
    (hRun : ∀ m p sink, run m p sink = Machine.conclude (execute m p) sink) (s : Session σ)
    (source : String) :
    s.runWith run source = s.settled source (execute s.machine (program source)) := by
  unfold runWith settled
  refine if_congr Iff.rfl rfl ?_
  rw [hRun]
  show _ = ended (execute s.machine (Grammar.parse (Source.lex source).tokens).program) _
  obtain ⟨result, m⟩ := execute s.machine (Grammar.parse (Source.lex source).tokens).program
  cases result <;> rfl

/-- A batch is settled by running its statements in order. -/
theorem run_eq (s : Session σ) (source : String) :
    s.run source = s.settled source (s.machine.executeAll (program source)) :=
  runWith_eq (fun _ _ _ => rfl) s source

/-- A prompt line is settled by running it as one, and then the flag of mistakes is lowered. -/
theorem runLine_eq (s : Session σ) (line : String) :
    s.runLine line =
      ((s.settled line (s.machine.runLine (program line))).1,
        { (s.settled line (s.machine.runLine (program line))).2 with
          sink := Sink.resetErrors (s.settled line (s.machine.runLine (program line))).2.sink }) := by
  unfold runLine
  rw [runWith_eq Machine.interpretLine_eq]

/-- A batch without a mistake is run, if the flag of mistakes is down. -/
theorem run_of_clean {s : Session σ} {source : String} (hFlag : Sink.hadError s.sink = false)
    (h : Clean source) : s.run source = ended (s.machine.executeAll (program source)) s.sink := by
  rw [run_eq, settled, s.told_of_clean h, hFlag]
  rfl

end Session

end TinyScript
