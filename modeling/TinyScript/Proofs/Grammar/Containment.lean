import TinyScript.Proofs.Grammar.Written
import TinyScript.Proofs.Token.KindSet

/-!
# Mistakes stay before the semicolon

A statement may be garbled in any way. As long as it is not a block, and no word inside it
begins another statement, all that is wrong with it is over at the next semicolon: either
the statement is read up to there, or it is given up and recovery skips to the same place.

No production reads a semicolon but the one that ends a statement. So what an expression
makes of the tokens before a semicolon is one reading, which depends neither on what stands
behind the semicolon nor on where the source ends. `Contained` says this of a production,
with one lemma for each way to build a reading; the productions for expressions follow by
their own induction, and those for declared names from them.

## Main results

* `expr_contained`, `declarators_contained`: productions before a semicolon.
* `Skippable.synchronize_append`: recovery before a semicolon.
* `exists_settle_statement_eq`: one turn of the loop over statements.
* `parse_fragment_append`: programs.
-/

namespace TinyScript.Grammar

open Diagnostic (Mistake)
open Token (Kind)

/-! ## Readings before a semicolon -/

/-- Whether a report is of a mistake that does not stop a statement: an invalid target or an
operator with nothing on its left. -/
def Tolerated (d : Diagnostic) : Prop :=
  d.code.label = "E1010" ∨ d.code.label = "E1011"

instance : DecidablePred Tolerated := fun _ =>
  inferInstanceAs (Decidable (_ ∨ _))

/-- The reading with more tokens behind those that it leaves. -/
def Reading.before {α : Type} (r : Reading α) (more : List Token) : Reading α :=
  { r with rest := r.rest ++ more }

/--
What `p` gives for the line of the end and the tokens behind the semicolon `semi` is the
same reading of the tokens `s` before it, for all of them. It leaves a last part of `s`, and
what it reports is tolerated.
-/
def Contained {α : Type} (semi : Token) (s : List Token) (p : Nat → List Token → Reading α) :
    Prop :=
  ∃ r : Reading α, r.rest <:+ s ∧ (∀ d ∈ r.reports, Tolerated d) ∧
    ∀ endLine after, p endLine after = r.before (semi :: after)

namespace Contained

variable {α β : Type} {semi : Token} {s : List Token} {p : Nat → List Token → Reading α}

theorem done (a : α) (s : List Token) :
    Contained semi s fun _ after => .done a (s ++ semi :: after) :=
  ⟨.done a s, List.suffix_rfl, List.forall_mem_nil _, fun _ _ => rfl⟩

/-- What stops a production is reported at a token of `s` or at the semicolon. -/
theorem fail (m : Mistake) (s : List Token) :
    Contained semi s fun endLine after =>
      (.fail (mistakeAt m endLine (s ++ semi :: after)) (s ++ semi :: after) : Reading α) := by
  cases s with
  | nil => exact ⟨.fail (m.atToken semi) [], List.suffix_rfl, List.forall_mem_nil _, fun _ _ => rfl⟩
  | cons t s =>
      exact ⟨.fail (m.atToken t) (t :: s), List.suffix_rfl, List.forall_mem_nil _, fun _ _ => rfl⟩

theorem congr {q : Nat → List Token → Reading α}
    (hEq : ∀ endLine after, q endLine after = p endLine after) (h : Contained semi s p) :
    Contained semi s q := by
  obtain ⟨r, hRest, hReports, hRead⟩ := h
  exact ⟨r, hRest, hReports, fun endLine after => (hEq endLine after).trans (hRead endLine after)⟩

theorem behind (h : Contained semi s p) (t : Token) : Contained semi (t :: s) p := by
  obtain ⟨r, hRest, hReports, hEq⟩ := h
  exact ⟨r, hRest.trans (List.suffix_cons t s), hReports, hEq⟩

/-- Two readings in a row stay before the semicolon if the second does so on what the first
leaves of `s`. -/
theorem bind {f : Nat → α → List Token → Reading β} (h : Contained semi s p)
    (hNext : ∀ a w, w.length ≤ s.length →
      Contained semi w fun endLine after => f endLine a (w ++ semi :: after)) :
    Contained semi s fun endLine after => (p endLine after).bind (f endLine) := by
  obtain ⟨r, hRest, hReports, hEq⟩ := h
  cases hOutcome : r.outcome with
  | error d =>
      refine ⟨r.followedBy (.fail d r.rest), hRest, ?_, fun endLine after => ?_⟩
      · simpa [Reading.followedBy, Reading.fail] using hReports
      · show (p endLine after).bind (f endLine) = _
        rw [hEq]
        simp only [Reading.bind, Reading.before, hOutcome]
        rfl
  | ok a =>
      obtain ⟨r', hRest', hReports', hEq'⟩ := hNext a r.rest hRest.length_le
      refine ⟨r.followedBy r', hRest'.trans hRest, ?_, fun endLine after => ?_⟩
      · intro d hd
        rcases List.mem_append.1 hd with hd | hd
        · exact hReports d hd
        · exact hReports' d hd
      · have hSecond : f endLine a (r.rest ++ semi :: after) = r'.before (semi :: after) :=
          hEq' endLine after
        show (p endLine after).bind (f endLine) = _
        rw [hEq]
        simp only [Reading.bind, Reading.before, hOutcome]
        rw [hSecond]
        rfl

theorem map (h : Contained semi s p) (f : α → β) :
    Contained semi s fun endLine after => (p endLine after).map f :=
  h.bind fun a w _ => done (f a) w

theorem afterDamage (h : Contained semi s p) (t : Token) :
    Contained semi s fun endLine after =>
      (p endLine after).afterDamage (Mistake.noLeftOperand.atToken t) := by
  obtain ⟨r, hRest, hReports, hEq⟩ := h
  refine ⟨r.afterDamage (Mistake.noLeftOperand.atToken t), hRest, ?_, fun endLine after => ?_⟩
  · exact List.forall_mem_cons.2 ⟨.inr rfl, hReports⟩
  · show (p endLine after).afterDamage _ = _
    rw [hEq]
    rfl

end Contained

/-! ## Productions -/

section Productions

variable {semi : Token} (hSemi : semi.kind = .semicolon)

include hSemi

theorem expect_contained {kind : Kind} (hKind : kind ≠ .semicolon) (m : Mistake) (s : List Token) :
    Contained semi s fun endLine after => expect kind m endLine (s ++ semi :: after) := by
  cases s with
  | nil =>
      have hOther : semi.kind ≠ kind := by
        rw [hSemi]
        exact hKind.symm
      simp only [List.nil_append, expect, hOther, if_false]
      exact .fail m []
  | cons t s =>
      by_cases hToken : t.kind = kind
      · simp only [List.cons_append, expect, hToken, if_true]
        exact (Contained.done t s).behind t
      · simp only [List.cons_append, expect, hToken, if_false]
        exact .fail m (t :: s)

omit hSemi in
theorem assignTo_contained (target : Expr) (t : Token) (value : Expr) (s : List Token) :
    Contained semi s fun _ after => assignTo target t value (s ++ semi :: after) := by
  unfold assignTo
  cases target with
  | «variable» name => exact .done _ s
  | _ =>
      refine ⟨{ Reading.done _ s with reports := [Mistake.invalidTarget.atToken t] },
        List.suffix_rfl, ?_, fun _ _ => rfl⟩
      exact List.forall_mem_singleton.2 (.inl rfl)

theorem join?_semicolon (l : Level) : l.join? semi = none := by
  cases l <;> simp [Level.join?, Level.operator?, hSemi]

/-- Nothing begins at a semicolon. -/
theorem expr_primary_semicolon (endLine : Nat) (after : List Token) :
    expr endLine .primary (semi :: after) =
      .fail (mistakeAt .noExpression endLine (semi :: after)) (semi :: after) := by
  have hLiteral : literal? semi = none := by simp [literal?, hSemi]
  simp [expr_primary_cons, hLiteral, hSemi, Level.ofOrphan?]

/-- The primary level stays before the semicolon if what stands inside does. -/
theorem primary_contained {s : List Token}
    (ih : ∀ l w, w.length < s.length →
      Contained semi w fun endLine after => expr endLine l (w ++ semi :: after)) :
    Contained semi s fun endLine after => expr endLine .primary (s ++ semi :: after) := by
  cases s with
  | nil =>
      simp only [List.nil_append, expr_primary_semicolon hSemi]
      exact .fail .noExpression []
  | cons t s =>
      have hInside : ∀ l, Contained semi s fun endLine after =>
          expr endLine l (s ++ semi :: after) := by
        intro l
        exact ih l s (Nat.lt_succ_self _)
      simp only [List.cons_append, expr_primary_cons]
      cases literal? t with
      | some v => exact (Contained.done _ s).behind t
      | none =>
          by_cases hName : t.kind = .identifier
          · simp only [hName, if_true]
            exact (Contained.done _ s).behind t
          by_cases hOpen : t.kind = .leftParen
          · simp only [hOpen, if_true]
            refine ((hInside .comma).bind fun inner w _ => ?_).behind t
            exact (expect_contained hSemi (by decide) _ w).map _
          simp only [hName, hOpen, if_false]
          cases Level.ofOrphan? t.kind with
          | none => exact .fail .noExpression (t :: s)
          | some l =>
              refine (Contained.afterDamage ?_ t).behind t
              exact (hInside l).bind fun _ w _ => .done _ w

/-- The conditional level stays before the semicolon if its parts do. -/
theorem conditional_contained {s : List Token}
    (hFirst : Contained semi s fun endLine after => expr endLine .equality (s ++ semi :: after))
    (ih : ∀ l w, w.length < s.length →
      Contained semi w fun endLine after => expr endLine l (w ++ semi :: after)) :
    Contained semi s fun endLine after => expr endLine .conditional (s ++ semi :: after) := by
  refine .congr (fun _ _ => expr_conditional _) (hFirst.bind fun condition w hLength => ?_)
  cases w with
  | nil =>
      simp only [List.nil_append, hSemi, reduceCtorEq, if_false]
      exact .done condition []
  | cons q w =>
      simp only [List.cons_append]
      by_cases hQuestion : q.kind = .question
      · simp only [hQuestion, if_true]
        refine ((ih .comma w hLength).bind fun thenBranch w' hLength' => ?_).behind q
        cases w' with
        | nil =>
            simp only [List.nil_append, hSemi, reduceCtorEq, if_false]
            exact .fail .noColonAfterBranch []
        | cons c w' =>
            simp only [List.cons_append]
            by_cases hColon : c.kind = .colon
            · simp only [hColon, if_true]
              have hShorter : w'.length < s.length := by
                simp only [List.length_cons] at hLength hLength'
                omega
              exact ((ih .conditional w' hShorter).bind fun _ w'' _ => .done _ w'').behind c
            · simp only [hColon, if_false]
              exact .fail .noColonAfterBranch (c :: w')
      · simp only [hQuestion, if_false]
        exact .done condition (q :: w)

/-- The assignment level stays before the semicolon if its parts do. -/
theorem assignment_contained {s : List Token}
    (hFirst : Contained semi s fun endLine after => expr endLine .conditional (s ++ semi :: after))
    (ih : ∀ l w, w.length < s.length →
      Contained semi w fun endLine after => expr endLine l (w ++ semi :: after)) :
    Contained semi s fun endLine after => expr endLine .assignment (s ++ semi :: after) := by
  refine .congr (fun _ _ => expr_assignment _) (hFirst.bind fun target w hLength => ?_)
  cases w with
  | nil =>
      simp only [List.nil_append, hSemi, reduceCtorEq, if_false]
      exact .done target []
  | cons t w =>
      simp only [List.cons_append]
      by_cases hEqual : t.kind = .equal
      · simp only [hEqual, if_true]
        exact ((ih .assignment w hLength).bind fun value w' _ =>
          assignTo_contained target t value w').behind t
      · simp only [hEqual, if_false]
        exact .done target (t :: w)

/-- **Expressions stay before the semicolon.** The induction is that of the productions, on
the tokens before the semicolon. -/
theorem expr_contained_and_chain_contained :
    (∀ l s, Contained semi s fun endLine after => expr endLine l (s ++ semi :: after)) ∧
      ∀ l left s, Contained semi s fun endLine after =>
        chain endLine l left (s ++ semi :: after) := by
  refine productions_induction ?_ ?_
  · intro l s ihShorter ihTighter ihChain
    by_cases hChain : l.isChain
    · simp only [expr_of_isChain hChain]
      exact (ihTighter l.tighter (Level.rank_tighter_lt hChain)).bind ihChain
    · cases l
      case assignment =>
        exact assignment_contained hSemi (ihTighter .conditional (by decide)) ihShorter
      case conditional =>
        exact conditional_contained hSemi (ihTighter .equality (by decide)) ihShorter
      case unary =>
        have hPrimary := ihTighter .primary (by decide)
        cases s with
        | nil =>
            simpa only [List.nil_append, expr_unary_cons, hSemi, UnaryOp.ofKind?] using hPrimary
        | cons t s =>
            simp only [List.cons_append, expr_unary_cons]
            cases UnaryOp.ofKind? t.kind with
            | none => exact hPrimary
            | some op =>
                exact ((ihShorter .unary s (Nat.lt_succ_self _)).bind fun _ w _ =>
                  .done _ w).behind t
      case primary => exact primary_contained hSemi ihShorter
      all_goals exact absurd rfl hChain
  · intro l left s ihShorter ihChain
    cases s with
    | nil =>
        simp only [List.nil_append, chain_cons, join?_semicolon hSemi]
        exact .done left []
    | cons t s =>
        simp only [List.cons_append, chain_cons]
        cases l.join? t with
        | none => exact .done left (t :: s)
        | some join =>
            refine ((ihShorter l.tighter s (Nat.lt_succ_self _)).bind
              fun right w hLength => ?_).behind t
            exact ihChain (join left right) w (Nat.lt_succ_of_le hLength)

theorem expr_contained (l : Level) (s : List Token) :
    Contained semi s fun endLine after => expr endLine l (s ++ semi :: after) :=
  (expr_contained_and_chain_contained hSemi).1 l s

theorem declarator_contained (s : List Token) :
    Contained semi s fun endLine after => declarator endLine (s ++ semi :: after) := by
  refine (expect_contained hSemi (by decide) .noVariableName s).bind fun name w _ => ?_
  cases w with
  | nil =>
      simp only [List.nil_append, initializer, hSemi, reduceCtorEq, if_false]
      exact .done _ []
  | cons t w =>
      simp only [List.cons_append, initializer]
      by_cases hEqual : t.kind = .equal
      · simp only [hEqual, if_true]
        exact ((expr_contained hSemi .assignment w).map _).behind t
      · simp only [hEqual, if_false]
        exact .done _ (t :: w)

/-- Declared names stay before the semicolon. -/
theorem declarators_contained (s : List Token) :
    Contained semi s fun endLine after => declarators endLine (s ++ semi :: after) := by
  obtain ⟨n, hLength⟩ : ∃ n, s.length = n := ⟨_, rfl⟩
  induction n using Nat.strongRecOn generalizing s with
  | ind n ih =>
      refine .congr (fun _ _ => declarators_eq _ _)
        ((declarator_contained hSemi s).bind fun d w hShorter => ?_)
      cases w with
      | nil =>
          simp only [List.nil_append, hSemi, reduceCtorEq, if_false]
          exact .done [d] []
      | cons t w =>
          simp only [List.cons_append]
          by_cases hComma : t.kind = .comma
          · simp only [hComma, if_true]
            rw [hLength, List.length_cons] at hShorter
            exact ((ih w.length hShorter w rfl).bind fun ds w' _ => .done (d :: ds) w').behind t
          · simp only [hComma, if_false]
            exact .done [d] (t :: w)

end Productions

/-! ## Recovery -/

/-- The words that begin a statement. -/
def statementWords : List Kind :=
  [.kwClass, .kwFun, .kwVar, .kwFor, .kwIf, .kwWhile, .kwPrint, .kwReturn]

theorem contains_statementStart (k : Kind) :
    Token.KindSet.statementStart.contains k = true ↔ k ∈ statementWords :=
  (Token.KindSet.represents_ofList statementWords).contains_iff k

/-- Tokens among which recovery does not stop before it has read them all: it may be the first
of them that begins a statement, since recovery does not look at it. -/
structure Skippable (s : List Token) : Prop where
  noSemicolon : ∀ t ∈ s, t.kind ≠ .semicolon
  noWord : ∀ t ∈ s.tail, t.kind ∉ statementWords

namespace Skippable

variable {s w : List Token} {t semi : Token}

theorem tail (h : Skippable (t :: s)) : Skippable s :=
  ⟨fun u hu => h.noSemicolon u (List.mem_cons_of_mem t hu),
    fun u hu => h.noWord u (List.mem_of_mem_tail hu)⟩

theorem suffix (h : Skippable s) (hSuffix : w <:+ s) : Skippable w := by
  induction s with
  | nil =>
      rw [List.suffix_nil.1 hSuffix]
      exact h
  | cons t s ih =>
      rcases List.suffix_cons_iff.1 hSuffix with rfl | hTail
      · exact h
      · exact ih h.tail hTail

/-- Recovery skips the tokens and the semicolon behind them, and nothing else. -/
theorem synchronize_append (h : Skippable s) (hSemi : semi.kind = .semicolon) (after : List Token) :
    synchronize (s ++ semi :: after) = after := by
  induction s with
  | nil =>
      rw [List.nil_append, synchronize]
      exact if_pos hSemi
  | cons t s ih =>
      have hToken : t.kind ≠ .semicolon := h.noSemicolon t List.mem_cons_self
      have hNext : startsStatement (s ++ semi :: after) = false := by
        cases s with
        | nil =>
            rw [List.nil_append, startsStatement, hSemi]
            decide
        | cons u s =>
            rw [List.cons_append, startsStatement, Bool.eq_false_iff, ne_eq,
              contains_statementStart]
            exact h.noWord u List.mem_cons_self
      rw [List.cons_append, synchronize, if_neg hToken, if_neg (by rw [hNext]; decide)]
      exact ih h.tail

end Skippable

/-! ## Statements -/

/-- Whether at most one of the reports of an item is not tolerated. -/
def Item.Single (item : Item) : Prop :=
  (item.reports.filter fun d => ¬Tolerated d).length ≤ 1

theorem filter_eq_nil_of_tolerated {reports : List Diagnostic} (h : ∀ d ∈ reports, Tolerated d) :
    (reports.filter fun d => ¬Tolerated d) = [] := by
  rw [List.filter_eq_nil_iff]
  intro d hd
  simpa using h d hd

theorem single_of_tolerated {reports : List Diagnostic} (h : ∀ d ∈ reports, Tolerated d)
    (stmt? : Option Stmt) : Item.Single ⟨stmt?, reports⟩ := by
  rw [Item.Single, filter_eq_nil_of_tolerated h]
  exact Nat.zero_le _

/-- What stops a statement is the only report that is not tolerated. -/
theorem single_of_stopped {reports : List Diagnostic} (h : ∀ d ∈ reports, Tolerated d)
    (stmt? : Option Stmt) (d : Diagnostic) : Item.Single ⟨stmt?, reports ++ [d]⟩ := by
  rw [Item.Single, List.filter_append, filter_eq_nil_of_tolerated h, List.nil_append]
  exact List.length_filter_le _ [d]

section Statements

variable {semi : Token} (hSemi : semi.kind = .semicolon) {s : List Token}

include hSemi

/-- A statement that is read before a semicolon and then ended by it is settled behind the
semicolon, whatever stops it on the way. -/
theorem exists_settle_eq {α : Type} {p : Nat → List Token → Reading α} (h : Contained semi s p)
    (hSkip : Skippable s) (f : α → Stmt) (m : Mistake) {q : Nat → List Token → Reading Stmt}
    (hStatement : ∀ endLine after,
      q endLine after = (p endLine after).bind fun a rest => terminated (f a) m endLine rest) :
    ∃ item : Item, item.Single ∧ ∀ endLine after, settle (q endLine after) = (item, after) := by
  obtain ⟨r, hRest, hReports, hEq⟩ := h
  have hLeft := (hSkip.suffix hRest).synchronize_append hSemi
  cases hOutcome : r.outcome with
  | error d =>
      refine ⟨⟨none, r.reports ++ [d]⟩, single_of_stopped hReports none d, fun endLine after => ?_⟩
      simp only [hStatement, hEq, Reading.bind, Reading.before, hOutcome]
      simp [settle, Reading.followedBy, Reading.fail, hLeft]
  | ok a =>
      cases hWhole : r.rest with
      | nil =>
          refine ⟨⟨if r.damaged then none else some (f a), r.reports⟩,
            single_of_tolerated hReports _, fun endLine after => ?_⟩
          simp only [hStatement, hEq, Reading.bind, Reading.before, hOutcome, hWhole,
            List.nil_append, terminated_of_kind hSemi]
          simp [settle, Reading.followedBy, Reading.done]
      | cons t w =>
          -- More is left before the semicolon than the statement can use.
          have hToken : t.kind ≠ .semicolon :=
            (hSkip.suffix hRest).noSemicolon t (by rw [hWhole]; exact List.mem_cons_self)
          simp only [hWhole, List.cons_append] at hLeft
          refine ⟨⟨none, r.reports ++ [m.atToken t]⟩, single_of_stopped hReports none _,
            fun endLine after => ?_⟩
          simp only [hStatement, hEq, Reading.bind, Reading.before, hOutcome, hWhole,
            List.cons_append, terminated, expect, hToken, if_false]
          simp [settle, Reading.followedBy, Reading.fail, Reading.map, Reading.bind, mistakeAt,
            hLeft]

/-- Tokens that can stand before the semicolon of one statement, garbled in any way. -/
structure Fragment (s : List Token) : Prop extends Skippable s where
  noMark : ∀ t ∈ s, t.kind ≠ .endOfFile
  noBlock : ∀ t ∈ s.head?, t.kind ≠ .leftBrace

/-- **One turn of the loop over statements ends behind the semicolon**, with the same item
whatever follows. -/
theorem exists_settle_statement_eq (h : Fragment s) :
    ∃ item : Item, item.Single ∧ ∀ endLine after,
      settle (statement endLine (s ++ semi :: after)) = (item, after) := by
  have hPhrase := expr_contained hSemi .comma
  cases s with
  | nil =>
      refine exists_settle_eq hSemi (hPhrase []) h.toSkippable Stmt.expression
        .noSemicolonAfterExpression fun endLine after => ?_
      rw [List.nil_append, statement_cons, hSemi, if_neg (by decide), if_neg (by decide),
        if_neg (by decide)]
      rfl
  | cons t s =>
      have hBlock : t.kind ≠ .leftBrace := h.noBlock t rfl
      by_cases hVar : t.kind = .kwVar
      · refine exists_settle_eq hSemi (declarators_contained hSemi s) h.tail declaring
          .noSemicolonAfterDeclaration fun endLine after => ?_
        rw [List.cons_append, statement_cons, if_pos hVar]
        rfl
      by_cases hPrint : t.kind = .kwPrint
      · refine exists_settle_eq hSemi (hPhrase s) h.tail Stmt.print .noSemicolonAfterValue
          fun endLine after => ?_
        rw [List.cons_append, statement_cons, if_neg hVar, if_pos hPrint]
        rfl
      · refine exists_settle_eq hSemi (hPhrase (t :: s)) h.toSkippable Stmt.expression
          .noSemicolonAfterExpression fun endLine after => ?_
        rw [List.cons_append, statement_cons, if_neg hVar, if_neg hPrint, if_neg hBlock]
        rfl

/-- The items of a garbled statement and of what follows its semicolon. -/
theorem exists_items_eq (h : Fragment s) :
    ∃ item : Item, item.Single ∧ ∀ endLine rest,
      (items endLine false (s ++ [semi] ++ rest)).1 = [item] ++ (items endLine false rest).1 := by
  obtain ⟨item, hSingle, hSettle⟩ := exists_settle_statement_eq hSemi h
  refine ⟨item, hSingle, fun endLine rest => ?_⟩
  rw [List.append_assoc, List.cons_append, List.nil_append]
  have hTurn := hSettle endLine rest
  obtain ⟨t, us, hCons⟩ : ∃ t us, s ++ semi :: rest = t :: us :=
    List.exists_cons_of_ne_nil (List.append_ne_nil_of_right_ne_nil s (List.cons_ne_nil semi rest))
  rw [hCons] at hTurn ⊢
  rw [items_cons, if_neg (by simp), hTurn]
  rfl

end Statements

/-! ## Programs -/

/--
**Errors stay inside their statement.** Let `s` be tokens without an end mark or a semicolon
that do not begin with a brace and have no word that begins a statement behind the first of
them. Then `s` and a semicolon are read first and what follows is read as it is on its own,
statements and reports alike. At most one statement comes of `s`, and at most one report
that is neither of an invalid target nor of a missing left operand.
-/
theorem parse_fragment_append {s : List Token} {semi : Token} (h : Fragment s)
    (hSemi : semi.kind = .semicolon) (rest : List Token) :
    (parse (s ++ [semi] ++ rest)).program =
        (parse (s ++ [semi])).program ++ (parse rest).program ∧
      (parse (s ++ [semi] ++ rest)).diagnostics =
        (parse (s ++ [semi])).diagnostics ++ (parse rest).diagnostics ∧
      (parse (s ++ [semi])).program.length ≤ 1 ∧
      ((parse (s ++ [semi])).diagnostics.filter fun d => ¬Tolerated d).length ≤ 1 := by
  obtain ⟨item, hSingle, hItems⟩ := exists_items_eq hSemi h
  have hInner : ∀ t ∈ s ++ [semi], t.kind ≠ .endOfFile := by
    intro t ht
    rcases List.mem_append.1 ht with hMem | hMem
    · exact h.noMark t hMem
    · rw [List.mem_singleton.1 hMem, hSemi]
      decide
  have hAppend := parse_append_of_items hInner hItems
  have hAlone : parse (s ++ [semi]) =
      ⟨[item].filterMap Item.stmt?, [item].flatMap Item.reports⟩ := by
    have hNil : parse [] = ⟨[], []⟩ := parse_of_beforeEnd_eq_nil rfl
    have hNone := hAppend []
    rwa [hNil, List.append_nil, List.append_nil, List.append_nil] at hNone
  rw [hAppend rest, hAlone]
  refine ⟨rfl, rfl, List.length_filterMap_le _ [item], ?_⟩
  rw [List.flatMap_singleton]
  exact hSingle

/-- `(a) = + b };` in front of `? print c;`: three reports before the semicolon, of which the
last is not tolerated, and nothing of it is left in the program. -/
theorem parse_fragment_append_garbled :
    let s : List Token :=
      [⟨.leftParen, "(", none, 1⟩, ⟨.identifier, "a", none, 1⟩, ⟨.rightParen, ")", none, 1⟩,
        ⟨.equal, "=", none, 1⟩, ⟨.plus, "+", none, 1⟩, ⟨.identifier, "b", none, 1⟩,
        ⟨.rightBrace, "\x7d", none, 1⟩]
    let semi : Token := ⟨.semicolon, ";", none, 1⟩
    let rest : List Token :=
      [⟨.question, "?", none, 2⟩, ⟨.kwPrint, "print", none, 2⟩, ⟨.identifier, "c", none, 2⟩,
        ⟨.semicolon, ";", none, 2⟩, .endOfFile 3]
    Fragment s ∧ semi.kind = .semicolon ∧
      (parse (s ++ [semi])).diagnostics.map (fun d => d.code.label) = ["E1011", "E1010", "E1001"] ∧
      (parse (s ++ [semi] ++ rest)).program =
        (parse (s ++ [semi])).program ++ (parse rest).program ∧
      (parse (s ++ [semi] ++ rest)).diagnostics =
        (parse (s ++ [semi])).diagnostics ++ (parse rest).diagnostics ∧
      (parse (s ++ [semi])).program.length ≤ 1 ∧
      ((parse (s ++ [semi])).diagnostics.filter fun d => ¬Tolerated d).length ≤ 1 := by
  intro s semi rest
  have hFragment : Fragment s := ⟨⟨by decide, by decide⟩, by decide, by decide⟩
  have hTurn : settle (statement 1 (s ++ [semi])) =
      (⟨none, [Mistake.noLeftOperand.atToken ⟨.plus, "+", none, 1⟩,
        Mistake.invalidTarget.atToken ⟨.equal, "=", none, 1⟩,
        Mistake.noSemicolonAfterExpression.atToken ⟨.rightBrace, "\x7d", none, 1⟩]⟩, []) := by cbv
  have hReports : (parse (s ++ [semi])).diagnostics.map (fun d => d.code.label) =
      ["E1011", "E1010", "E1001"] := by
    show ((items 1 false (s ++ [semi])).1.flatMap Item.reports).map _ = _
    rw [List.cons_append, items_cons, if_neg (by decide), ← List.cons_append, hTurn]
    simp only [items_nil]
    rfl
  exact ⟨hFragment, rfl, hReports, parse_fragment_append hFragment rfl rest⟩

end TinyScript.Grammar
