import TinyScript.Proofs.Number.ReadBack
import TinyScript.Proofs.Session.Reading
import TinyScript.Proofs.Source.Numerals

/-!
# Printed numbers read back

The display form of a finite number can be put into a source again. Without a sign it is one
token, and the token's literal is the number. With a sign it is a minus and the display form
of the negated number, so the sign is not read but computed: by the unary operator, which
gives the number back because negation flips one bit and nothing else. A negative zero keeps
its sign in this way.

The two cases differ in the segments, in the tokens and in the expression. Each of the three
is one definition by the sign, and everything after it is stated for both.

## Main results

* `Number.lex_display`, `Number.lex_printing`: the tokens of a display form, and of its printing.
* `Number.eval_expression`: its expression is worth the number.
* `Session.run_print_display`: printing it prints it again.
-/

namespace TinyScript

namespace Number

open Source (Lexeme Placed Segment lex segments)

variable {x : Float}

/-! ## Segments and tokens -/

/-- The minus in front of a number with a sign, on the first line. -/
def minus : Token := ⟨.minus, "-", none, 1⟩

/-- The segments of a display form. -/
def numeral (x : Float) : List Segment :=
  if isNegative x then
    [.token .minus ['-'] none, .token .number (display (-x)).toList (some (.number (-x)))]
  else
    [.token .number (display x).toList (some (.number x))]

/-- The tokens of a display form, on the first line. -/
def tokens (x : Float) : List Token :=
  if isNegative x then
    [minus, ⟨.number, display (-x), some (.number (-x)), 1⟩]
  else
    [⟨.number, display x, some (.number x), 1⟩]

theorem filterMap_token?_numeral (x : Float) :
    (numeral x).filterMap (fun s => Placed.token? ⟨s, 1⟩) = tokens x := by
  unfold numeral tokens
  split <;> simp [Placed.token?, Segment.tokenOn?, minus]

theorem filterMap_diagnostic?_numeral (x : Float) :
    (numeral x).filterMap (fun s => Placed.diagnostic? ⟨s, 1⟩) = [] := by
  unfold numeral
  split <;> rfl

theorem lexeme_display_neg (hFinite : x.isFinite = true) (hSign : isNegative x = true) :
    Lexeme .number (display (-x)).toList (some (.number (-x))) := by
  apply lexeme_display (isFinite_neg hFinite)
  rw [isNegative_neg hFinite, hSign, Bool.not_true]

/-- A display form is read as its segments, in front of anything that does not continue it. -/
theorem segments_display_append (hFinite : x.isFinite = true) {rest : List Char}
    (hRest : ∀ c ∈ rest.head?, c.isDigit = false ∧ c ≠ '.') :
    segments ((display x).toList ++ rest) = numeral x ++ segments rest := by
  unfold numeral
  split
  · next hSign =>
    rw [display_of_isNegative hFinite hSign, String.toList_append]
    change segments ('-' :: ((display (-x)).toList ++ rest)) = _
    rw [Source.segments_minus, Source.segments_number (lexeme_display_neg hFinite hSign) hRest]
    rfl
  · next hSign =>
    have hLexeme := lexeme_display hFinite (Bool.eq_false_iff.2 hSign)
    rw [Source.segments_number hLexeme hRest]
    rfl

/-! ## Sources with a display form -/

/-- A display form is a number lexeme, behind a minus or not. -/
theorem exists_lexeme_display (hFinite : x.isFinite = true) :
    ∃ front cs payload, (display x).toList = front ++ cs ∧ (front = [] ∨ front = ['-']) ∧
      Lexeme .number cs payload := by
  by_cases hSign : isNegative x = true
  · rw [display_of_isNegative hFinite hSign, String.toList_append]
    exact ⟨_, _, _, rfl, .inr rfl, lexeme_display_neg hFinite hSign⟩
  · exact ⟨[], _, _, rfl, .inl rfl, lexeme_display hFinite (Bool.eq_false_iff.2 hSign)⟩

theorem isBlank_of_mem_head?_display (hFinite : x.isFinite = true) {rest : List Char} {c : Char}
    (h : c ∈ ((display x).toList ++ rest).head?) : Segment.isBlank c = false := by
  obtain ⟨front, cs, payload, hText, rfl | rfl, hLexeme⟩ := exists_lexeme_display hFinite
  · rw [hText] at h
    exact Segment.isBlank_of_isDigit (hLexeme.isDigit_of_mem_head? h)
  · rw [hText] at h
    cases h
    rfl

theorem lineFeed_notMem_display (hFinite : x.isFinite = true) : '\n' ∉ (display x).toList := by
  obtain ⟨front, cs, payload, hText, hFront, hLexeme⟩ := exists_lexeme_display hFinite
  have hCs := hLexeme.lineFeed_notMem
  rw [hText]
  rcases hFront with rfl | rfl <;> simp [hCs]

theorem lex_display (hFinite : x.isFinite = true) :
    lex (display x) = ⟨tokens x ++ [.endOfFile 1], []⟩ := by
  have hSegments : segments (display x).toList = numeral x := by
    have hEnd := @segments_display_append x hFinite [] (by simp)
    rwa [List.append_nil, Source.segments_nil, List.append_nil] at hEnd
  rw [Source.lex_of_oneLine hSegments (lineFeed_notMem_display hFinite), filterMap_token?_numeral,
    filterMap_diagnostic?_numeral]

/-- The source that prints the display form of a number. -/
def printing (x : Float) : String :=
  "print " ++ display x ++ ";"

/-- The tokens of the source that prints the display form of a number. -/
def printingTokens (x : Float) : List Token :=
  ⟨.kwPrint, "print", none, 1⟩ :: (tokens x ++ [⟨.semicolon, ";", none, 1⟩])

theorem lex_printing (hFinite : x.isFinite = true) :
    lex (printing x) = ⟨printingTokens x ++ [.endOfFile 1], []⟩ := by
  have hText : (printing x).toList = "print ".toList ++ ((display x).toList ++ [';']) := by
    rw [printing, String.toList_append, String.toList_append, List.append_assoc]
    rfl
  have hSegments : segments (printing x).toList =
      [.token .kwPrint "print".toList none, .blank [' ']] ++
        (numeral x ++ [.token .semicolon [';'] none]) := by
    rw [hText, Source.segments_print fun c hc => isBlank_of_mem_head?_display hFinite hc,
      segments_display_append hFinite (by simp), Source.segments_semicolon]
    rfl
  have hLine : '\n' ∉ (printing x).toList := by
    rw [hText]
    simp [lineFeed_notMem_display hFinite]
  rw [Source.lex_of_oneLine hSegments hLine]
  simp only [List.filterMap_append, filterMap_token?_numeral, filterMap_diagnostic?_numeral]
  rfl

/-! ## Reading and running -/

/-- The expression that a display form is read as. -/
def expression (x : Float) : Expr :=
  if isNegative x then .unary .neg minus (.literal (.number (-x))) else .literal (.number x)

/-- The expression of a display form is worth the number. -/
theorem eval_expression (hFinite : x.isFinite = true) (env : Environment) :
    (expression x).eval env = (.ok (.number x), env) := by
  unfold expression
  split
  · change (Except.ok (Value.number (-(-x))), env) = _
    rw [neg_neg_of_isFinite hFinite]
  · rfl

theorem written_printingTokens (x : Float) :
    Grammar.Written [.print (expression x)] (printingTokens x) := by
  unfold expression printingTokens tokens
  split
  · constructor
    · exact ⟨⟨by decide, rfl, trivial⟩, trivial⟩
    · simp [Stmt.marksAll, Stmt.marks, Expr.marks, Grammar.Mark.Fits, Grammar.IsLiteral]
  · constructor
    · exact ⟨trivial, trivial⟩
    · simp [Stmt.marksAll, Stmt.marks, Expr.marks, Grammar.Mark.Fits, Grammar.IsLiteral]

theorem clean_printing (hFinite : x.isFinite = true) :
    Source.Clean (printing x) ∧ Source.program (printing x) = [.print (expression x)] := by
  have hLex := lex_printing hFinite
  exact Source.clean_of_written (by rw [hLex]) (by rw [hLex]) (written_printingTokens x)

theorem executeAll_expression (hFinite : x.isFinite = true) (m : Machine) :
    m.executeAll [.print (expression x)] = (.ok (), m.print (.number x)) := by
  have hEval := eval_expression hFinite m.env
  simp [Machine.executeAll, Machine.execute, Machine.eval, hEval, Run.andThen]

end Number

namespace Session

open Number (display isNegative)

variable {σ : Type} [Sink σ] {s : Session σ} {x : Float}

theorem settled_printing (hFlag : Sink.hadError s.sink = false) (hFinite : x.isFinite = true) :
    s.settled (Number.printing x) (s.machine.executeAll [.print (Number.expression x)]) =
      (.success, ⟨s.machine.print (.number x), s.sink⟩) := by
  obtain ⟨hClean, -⟩ := Number.clean_printing hFinite
  rw [settled, s.told_of_clean hClean, hFlag, Number.executeAll_expression hFinite]
  rfl

theorem run_printing (hFlag : Sink.hadError s.sink = false) (hFinite : x.isFinite = true) :
    s.run (Number.printing x) = (.success, ⟨s.machine.print (.number x), s.sink⟩) := by
  rw [run_eq, (Number.clean_printing hFinite).2, settled_printing hFlag hFinite]

/-- At a prompt nothing more is printed, since the last statement is no expression. -/
theorem runLine_printing (hFlag : Sink.hadError s.sink = false) (hFinite : x.isFinite = true) :
    s.runLine (Number.printing x) =
      (.success, ⟨s.machine.print (.number x), Sink.resetErrors s.sink⟩) := by
  have hLine : s.machine.runLine [.print (Number.expression x)] =
      s.machine.executeAll [.print (Number.expression x)] := rfl
  rw [runLine_eq, (Number.clean_printing hFinite).2, hLine, settled_printing hFlag hFinite]

/-- Printed numbers read back. Printing the display form of a finite number reports nothing and
prints the same form, as a batch and at a prompt. Without a sign the form is one token with the
number as its literal; with a sign it is read as the negation of the negated number. -/
theorem run_print_display (s : Session σ) (x : Float) (hFlag : Sink.hadError s.sink = false)
    (hFinite : x.isFinite = true) :
    let source := "print " ++ display x ++ ";"
    let printed : Machine := ⟨s.machine.env, s.machine.output.println (display x)⟩
    let minus : Token := ⟨.minus, "-", none, 1⟩
    s.run source = (.success, ⟨printed, s.sink⟩) ∧
      s.runLine source = (.success, ⟨printed, Sink.resetErrors s.sink⟩) ∧
      (isNegative x = false →
        Source.lex (display x) =
          ⟨[⟨.number, display x, some (.number x), 1⟩, .endOfFile 1], []⟩) ∧
      (isNegative x = true →
        display x = "-" ++ display (-x) ∧
        Source.lex (display x) =
          ⟨[minus, ⟨.number, display (-x), some (.number (-x)), 1⟩, .endOfFile 1], []⟩ ∧
        Source.program source = [.print (.unary .neg minus (.literal (.number (-x))))] ∧
        ∀ env, Expr.eval (.unary .neg minus (.literal (.number (-x)))) env =
          (.ok (.number x), env)) := by
  intro source printed minus
  have hLex := Number.lex_display hFinite
  refine ⟨run_printing hFlag hFinite, runLine_printing hFlag hFinite, ?_, ?_⟩
  · intro hSign
    rw [hLex, Number.tokens, if_neg (by simp [hSign])]
    rfl
  · intro hSign
    have hProgram := (Number.clean_printing hFinite).2
    have hEval := Number.eval_expression hFinite
    rw [Number.tokens, if_pos hSign] at hLex
    rw [Number.expression, if_pos hSign] at hProgram hEval
    exact ⟨Number.display_of_isNegative hFinite hSign, hLex, hProgram, hEval⟩

/-- A negative zero, printed in a new session. -/
theorem run_print_display_negativeZero :
    let s : Session Queue := .new {} .empty
    let x : Float := -0.0
    Sink.hadError s.sink = false ∧ x.isFinite = true ∧ isNegative x = true ∧ display x = "-0" ∧
      (s.run "print -0;").1 = .success ∧ (s.run "print -0;").2.sink = s.sink ∧
      (s.run "print -0;").2.machine.output.text = "-0\n" := by
  intro s x
  have hFlag : Sink.hadError s.sink = false := rfl
  have hFinite : x.isFinite = true := by decide
  have hText : display x = "-0" := by decide +kernel
  have hRun := (run_print_display s x hFlag hFinite).1
  rw [hText] at hRun
  change s.run "print -0;" = _ at hRun
  rw [hRun]
  exact ⟨hFlag, hFinite, by decide, hText, rfl, rfl, rfl⟩

end Session

end TinyScript
