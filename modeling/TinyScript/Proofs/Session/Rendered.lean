import TinyScript.Proofs.Program.Render
import TinyScript.Proofs.Session.Reports

/-!
# The text of a program identifies it

A program that was read is made of tokens of its source, mistakes or not, so its text tells it
but for lines (`Stmt.mapLineAll_eq_of_render_eq`). What a source cannot rule out is a number
too large to be finite: it is shown as the word `inf`, which is also a name.

## Main results

* `lexedAll_program`: what a program is made of.
* `program_eq_of_render_eq`: programs with the same text.
-/

namespace TinyScript.Source

open Grammar

/-- Whether all number literals of a program are finite. -/
def FiniteNumbers (p : List Stmt) : Prop :=
  ∀ x : Float, Mark.literal (.number x) ∈ Stmt.marksAll p → x.isFinite = true

variable {source : String}

/-- The tokens of a source but for its end mark are lexemes. -/
theorem lexed_of_mem_beforeEnd {t : Token} (h : t ∈ beforeEnd (lex source).tokens) : t.Lexed := by
  have hEnd : t.kind ≠ .endOfFile := by simpa using List.mem_takeWhile_imp h
  have hMem : t ∈ (lex source).tokens := List.takeWhile_subset _ h
  exact lexeme_of_mem_filterMap (mem_filterMap_of_mem_lex hMem hEnd)

/-- A number literal is read without a sign. -/
theorem isNegative_of_mem_marks {x : Float}
    (h : .literal (.number x) ∈ Stmt.marksAll (program source)) : Number.isNegative x = false := by
  obtain ⟨t, hMem, hKind, hPayload⟩ := exists_fits_of_mem (passage_parse _).accounts.some h
  have hLexed := lexed_of_mem_beforeEnd hMem
  rw [Token.Lexed, hKind, hPayload] at hLexed
  obtain ⟨c, ds, -, -, ⟨-, hNumber⟩ | ⟨e, es, -, -, hNumber⟩⟩ := hLexed.exists_digits
  · cases hNumber
    exact Decimal.isNegative_toFloat _
  · cases hNumber
    exact Decimal.isNegative_toFloat _

/-- What the program of a source is made of. -/
theorem lexedAll_program (h : FiniteNumbers (program source)) :
    Stmt.LexedAll (program source) := by
  apply (wellFormedAll_program source).lexed
  intro m hm
  cases m with
  | fixed kind => trivial
  | stored t => exact lexed_of_mem_beforeEnd (mem_beforeEnd_of_stored hm)
  | literal v =>
      cases v with
      | number x => exact ⟨h x hm, isNegative_of_mem_marks hm⟩
      | _ => trivial

/--
Programs of two sources whose number literals are finite, and whose statements have the same
texts one by one, are the same but for the lines of their tokens. This holds whichever
characters are visible.
-/
theorem program_eq_of_render_eq (visible : Char → Bool) {s s' : String}
    (h : FiniteNumbers (program s)) (h' : FiniteNumbers (program s'))
    (hText : (program s).map (Stmt.renderBy visible) = (program s').map (Stmt.renderBy visible))
    (line : Nat) :
    Stmt.mapLineAll (fun _ => line) (program s) = Stmt.mapLineAll (fun _ => line) (program s') :=
  Stmt.mapLineAll_eq_of_render_eq (lexedAll_program h) (lexedAll_program h') hText

theorem segments_of_first {c : Char} {cs rest : List Char} {s : Segment} {ss : List Segment}
    (h : Segment.first c cs = (s, rest)) (hRest : segments rest = ss) :
    segments (c :: cs) = s :: ss := by
  rw [segments_cons, h, hRest]

/-- Minus one and a variable with the name that infinity is shown by, on one line and on two. -/
theorem program_eq_of_render_eq_inf :
    let a := "print -1 - inf;"
    let b := "print\n- 1-inf;"
    FiniteNumbers (program a) ∧ FiniteNumbers (program b) ∧
      (program a).map Stmt.render = (program b).map Stmt.render ∧
      Stmt.mapLineAll (fun _ => 1) (program a) = Stmt.mapLineAll (fun _ => 1) (program b) := by
  intro a b
  -- The number is kept as a variable, so that tokens can be computed without it.
  obtain ⟨one, hOne⟩ : ∃ x, x = (Decimal.ofDigits ['1'] []).toFloat := ⟨_, rfl⟩
  let tokens (line : Nat) : List Token :=
    [⟨.kwPrint, "print", none, 1⟩, ⟨.minus, "-", none, line⟩,
      ⟨.number, "1", some (.number one), line⟩, ⟨.minus, "-", none, line⟩,
      ⟨.identifier, "inf", none, line⟩, ⟨.semicolon, ";", none, line⟩]
  let tree (line : Nat) : List Stmt :=
    [.print (.binary .sub ⟨.minus, "-", none, line⟩
      (.unary .neg ⟨.minus, "-", none, line⟩ (.literal (.number one)))
      (.variable ⟨.identifier, "inf", none, line⟩))]
  have hWritten (line : Nat) : Written (tree line) (tokens line) := by
    refine ⟨Stmt.wellFormedAll_iff.2 ?_, ?_⟩
    · simp [tree, Stmt.WellFormed, Level.Admits, Level.ofOperator, Level.rank,
        BinaryOp.ofKind?, UnaryOp.ofKind?]
    · simp [tree, tokens, Stmt.marksAll, Stmt.marks, Expr.marks, Mark.Fits, IsLiteral]
  have hNumbers (line : Nat) : FiniteNumbers (tree line) := by
    intro x hx
    obtain rfl : x = one := by simpa [tree, Stmt.marksAll, Stmt.marks, Expr.marks] using hx
    rw [hOne]
    decide +kernel
  have hSegments : segments "print -1 - inf;".toList = [.token .kwPrint "print".toList none,
      .blank [' '], .token .minus ['-'] none, .token .number ['1'] (some (.number one)),
      .blank [' '], .token .minus ['-'] none, .blank [' '],
      .token .identifier "inf".toList none, .token .semicolon [';'] none] := by
    rw [hOne]
    repeat' refine segments_of_first rfl ?_
    exact segments_nil
  have hSegments' : segments "print\n- 1-inf;".toList = [.token .kwPrint "print".toList none,
      .lineFeed, .token .minus ['-'] none, .blank [' '],
      .token .number ['1'] (some (.number one)), .token .minus ['-'] none,
      .token .identifier "inf".toList none, .token .semicolon [';'] none] := by
    rw [hOne]
    repeat' refine segments_of_first rfl ?_
    exact segments_nil
  have hLex : lex a = ⟨tokens 1 ++ [.endOfFile 1], []⟩ := by
    rw [lex, hSegments]
    cbv
  have hLex' : lex b = ⟨tokens 2 ++ [.endOfFile 2], []⟩ := by
    rw [lex, hSegments']
    cbv
  have hFirst : program a = tree 1 :=
    (clean_of_written (by rw [hLex]) (by rw [hLex]) (hWritten 1)).2
  have hSecond : program b = tree 2 :=
    (clean_of_written (by rw [hLex']) (by rw [hLex']) (hWritten 2)).2
  have hText : (program a).map Stmt.render = (program b).map Stmt.render := by
    rw [hFirst, hSecond]
    rfl
  have hNumbers' : FiniteNumbers (program a) ∧ FiniteNumbers (program b) := by
    rw [hFirst, hSecond]
    exact ⟨hNumbers 1, hNumbers 2⟩
  exact ⟨hNumbers'.1, hNumbers'.2, hText,
    program_eq_of_render_eq Text.isVisible hNumbers'.1 hNumbers'.2 hText 1⟩

end TinyScript.Source
