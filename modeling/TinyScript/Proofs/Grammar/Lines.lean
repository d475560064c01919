import TinyScript.Proofs.Grammar.Productions
import TinyScript.Proofs.Program.Lines

/-!
# Reading on other lines

A production looks at the kinds, the texts and the values of its tokens, never at their
lines. It keeps the lines it meets, in the tokens of its tree and in what it reports, and
that is all it does with them. So on other lines it reads as far as on its own, gives the
same tree with the tokens moved, and reports the same mistakes on the lines that the
tokens have now; this holds of mistakes that stop a statement and of the place where
reading goes on after them.

There is one lemma for each way to build a reading, and sequential composition is
`Reading.bind_mapLine`; the productions follow the recursion of the grammar.

## Main results

* `expr_mapLine`, `statement_mapLine_and_items_mapLine`: productions on other lines.
* `parse_mapLine`: programs on other lines, with mistakes or without.
-/

namespace TinyScript.Grammar

open Diagnostic (Mistake)
open Token (Kind)

variable {α β : Type} {endLine : Nat} (g : Nat → Nat)

/-! ## Readings -/

/-- The reading on other lines, where `move` puts its tree on them. -/
def Reading.mapLine (move : α → α) (r : Reading α) : Reading α where
  outcome := (r.outcome.map move).mapError (Diagnostic.mapLine g)
  rest := r.rest.map (Token.mapLine g)
  reports := r.reports.map (Diagnostic.mapLine g)
  damaged := r.damaged

namespace Reading

variable {g} {move : α → α} {move' : β → β}

theorem done_mapLine (a : α) (ts : List Token) :
    Reading.done (move a) (ts.map (Token.mapLine g)) = (Reading.done a ts).mapLine g move :=
  rfl

theorem followedBy_mapLine (r : Reading α) (s : Reading β) :
    (r.mapLine g move).followedBy (s.mapLine g move') = (r.followedBy s).mapLine g move' := by
  simp [followedBy, mapLine]

/-- To move a sequence of readings, move each of them. -/
theorem bind_mapLine {r : Reading α} {f f' : α → List Token → Reading β}
    (hNext : ∀ a, f' (move a) (r.rest.map (Token.mapLine g)) = (f a r.rest).mapLine g move') :
    (r.mapLine g move).bind f' = (r.bind f).mapLine g move' := by
  obtain ⟨outcome, rest, reports, damaged⟩ := r
  cases outcome with
  | ok a =>
      show (mapLine g move _).followedBy (f' (move a) (rest.map (Token.mapLine g))) = _
      rw [hNext a]
      exact followedBy_mapLine _ (f a rest)
  | error d => exact followedBy_mapLine _ (.fail d rest)

theorem map_mapLine {r : Reading α} {f f' : α → β} (h : ∀ a, f' (move a) = move' (f a)) :
    (r.mapLine g move).map f' = (r.map f).mapLine g move' := by
  refine bind_mapLine fun a => ?_
  rw [h a]
  exact done_mapLine _ _

theorem afterDamage_mapLine {r r' : Reading α} (d : Diagnostic) (h : r' = r.mapLine g move) :
    r'.afterDamage (d.mapLine g) = (r.afterDamage d).mapLine g move := by
  rw [h]
  rfl

/-- What is asked of a token has the same answer on all lines. -/
theorem ite_mapLine {p : Prop} [Decidable p] {r s r' s' : Reading α}
    (hTrue : r' = r.mapLine g move) (hFalse : s' = s.mapLine g move) :
    (if p then r' else s') = (if p then r else s).mapLine g move := by
  by_cases h : p
  · rw [if_pos h, if_pos h, hTrue]
  · rw [if_neg h, if_neg h, hFalse]

end Reading

theorem expect_mapLine (kind : Kind) (m : Mistake) (ts : List Token) :
    expect kind m (g endLine) (ts.map (Token.mapLine g)) =
      (expect kind m endLine ts).mapLine g (Token.mapLine g) := by
  cases ts with
  | nil => rfl
  | cons t rest => exact Reading.ite_mapLine rfl rfl

/-! ## Expressions -/

theorem literal?_mapLine (t : Token) : literal? (t.mapLine g) = literal? t :=
  rfl

/-- A token joins moved operands to the moved join of them, or joins nothing on any line. -/
theorem Level.join?_mapLine (l : Level) (t : Token) :
    (l.join? t = none ∧ l.join? (t.mapLine g) = none) ∨
      ∃ join join', l.join? t = some join ∧ l.join? (t.mapLine g) = some join' ∧
        ∀ left right, join' (left.mapLine g) (right.mapLine g) = (join left right).mapLine g := by
  by_cases hLevel : l = .comma
  · by_cases hKind : t.kind = .comma
    · refine .inr ⟨.comma, .comma, ?_, ?_, fun _ _ => rfl⟩ <;> simp [join?, hLevel, hKind]
    · refine .inl ⟨?_, ?_⟩ <;> simp [join?, hLevel, hKind]
  · cases hOp : l.operator? t.kind with
    | none => refine .inl ⟨?_, ?_⟩ <;> simp [join?, hLevel, hOp]
    | some op =>
        refine .inr ⟨.binary op t, .binary op (t.mapLine g), ?_, ?_, fun _ _ => rfl⟩ <;>
          simp [join?, hLevel, hOp]

theorem assignTo_mapLine (target : Expr) (equals : Token) (value : Expr) (rest : List Token) :
    assignTo (target.mapLine g) (equals.mapLine g) (value.mapLine g)
        (rest.map (Token.mapLine g)) =
      (assignTo target equals value rest).mapLine g (Expr.mapLine g) := by
  cases target <;> rfl

theorem closeGroup_mapLine (inner : Expr) (ts : List Token) :
    closeGroup (g endLine) (inner.mapLine g) (ts.map (Token.mapLine g)) =
      (closeGroup endLine inner ts).mapLine g (Expr.mapLine g) := by
  rw [closeGroup, expect_mapLine]
  exact Reading.map_mapLine fun _ => rfl

section Step

variable {g}

/-- Reading at a level does not depend on the lines of the given tokens. -/
def ExprMoves (g : Nat → Nat) (endLine : Nat) (l : Level) (ts : List Token) : Prop :=
  expr (g endLine) l (ts.map (Token.mapLine g)) = (expr endLine l ts).mapLine g (Expr.mapLine g)

/-- Reading on in a chain does not depend on the lines of the given tokens. -/
def ChainMoves (g : Nat → Nat) (endLine : Nat) (l : Level) (left : Expr) (ts : List Token) : Prop :=
  chain (g endLine) l (left.mapLine g) (ts.map (Token.mapLine g)) =
    (chain endLine l left ts).mapLine g (Expr.mapLine g)

theorem assignment_moves {ts : List Token}
    (hShorter : ∀ k us, us.length < ts.length → ExprMoves g endLine k us)
    (hTighter : ExprMoves g endLine .conditional ts) : ExprMoves g endLine .assignment ts := by
  rw [ExprMoves, expr_assignment, expr_assignment, hTighter]
  refine Reading.bind_mapLine fun target => ?_
  have hRest := @length_expr endLine .conditional ts
  cases hLeft : (expr endLine .conditional ts).rest with
  | nil => rfl
  | cons t after =>
      rw [hLeft, List.length_cons] at hRest
      refine Reading.ite_mapLine ?_ rfl
      rw [hShorter .assignment after hRest]
      exact Reading.bind_mapLine fun value => assignTo_mapLine g target t value _

theorem conditional_moves {ts : List Token}
    (hShorter : ∀ k us, us.length < ts.length → ExprMoves g endLine k us)
    (hTighter : ExprMoves g endLine .equality ts) : ExprMoves g endLine .conditional ts := by
  rw [ExprMoves, expr_conditional, expr_conditional, hTighter]
  refine Reading.bind_mapLine fun condition => ?_
  have hRest := @length_expr endLine .equality ts
  cases hLeft : (expr endLine .equality ts).rest with
  | nil => rfl
  | cons t after =>
      rw [hLeft, List.length_cons] at hRest
      refine Reading.ite_mapLine ?_ rfl
      rw [hShorter .comma after hRest]
      refine Reading.bind_mapLine fun thenBranch => ?_
      have hMiddle := @length_expr endLine .comma after
      cases hColon : (expr endLine .comma after).rest with
      | nil => rfl
      | cons c final =>
          rw [hColon, List.length_cons] at hMiddle
          refine Reading.ite_mapLine ?_ rfl
          rw [hShorter .conditional final (by omega)]
          exact Reading.bind_mapLine fun elseBranch => Reading.done_mapLine _ _

theorem primary_moves {ts : List Token}
    (hShorter : ∀ k us, us.length < ts.length → ExprMoves g endLine k us) :
    ExprMoves g endLine .primary ts := by
  cases ts with
  | nil =>
      rw [ExprMoves, List.map_nil, expr_primary_nil, expr_primary_nil]
      rfl
  | cons t rest =>
      have hBehind : ∀ k, ExprMoves g endLine k rest := fun k =>
        hShorter k rest (Nat.lt_succ_self _)
      rw [ExprMoves, List.map_cons, expr_primary_cons, expr_primary_cons, literal?_mapLine]
      split
      · rfl
      · refine Reading.ite_mapLine rfl ?_
        refine Reading.ite_mapLine ?_ ?_
        · rw [hBehind .comma]
          exact Reading.bind_mapLine fun inner => closeGroup_mapLine g inner _
        · rw [Token.kind_mapLine]
          split
          · next level _ =>
              rw [hBehind level]
              refine Reading.afterDamage_mapLine (Mistake.noLeftOperand.atToken t) ?_
              exact Reading.map_mapLine (fun _ => rfl)
          · rfl

theorem unary_moves {ts : List Token}
    (hShorter : ∀ k us, us.length < ts.length → ExprMoves g endLine k us) :
    ExprMoves g endLine .unary ts := by
  have hPrimary := primary_moves hShorter
  cases ts with
  | nil => rwa [ExprMoves, List.map_nil, expr_unary_nil, expr_unary_nil]
  | cons t rest =>
      rw [ExprMoves, List.map_cons, expr_unary_cons, expr_unary_cons, Token.kind_mapLine]
      split
      · rw [hShorter .unary rest (Nat.lt_succ_self _)]
        exact Reading.bind_mapLine fun operand => Reading.done_mapLine _ _
      · exact hPrimary

theorem chain_moves {l : Level} {left : Expr} {ts : List Token}
    (hShorter : ∀ k us, us.length < ts.length → ExprMoves g endLine k us)
    (hLater : ∀ left' us, us.length < ts.length → ChainMoves g endLine l left' us) :
    ChainMoves g endLine l left ts := by
  cases ts with
  | nil =>
      rw [ChainMoves, List.map_nil, chain_nil, chain_nil]
      rfl
  | cons t rest =>
      rw [ChainMoves, List.map_cons, chain_cons, chain_cons]
      rcases l.join?_mapLine g t with ⟨hNone, hNone'⟩ | ⟨join, join', hJoin, hJoin', hMove⟩
      · rw [hNone, hNone']
        rfl
      · simp only [hJoin, hJoin']
        rw [hShorter l.tighter rest (Nat.lt_succ_self _)]
        refine Reading.bind_mapLine fun right => ?_
        rw [hMove]
        exact hLater _ _ (Nat.lt_succ_of_le (length_expr ..))

end Step

/-- Every level reads the same on all lines. -/
theorem expr_mapLine (l : Level) (ts : List Token) :
    expr (g endLine) l (ts.map (Token.mapLine g)) =
      (expr endLine l ts).mapLine g (Expr.mapLine g) := by
  refine (productions_induction (E := ExprMoves g endLine) (C := ChainMoves g endLine) ?_ ?_).1 l ts
  · intro l ts hShorter hTighter hChain
    -- The five chains differ in nothing but the operators that join them.
    have hOfChain : l.isChain → ExprMoves g endLine l ts := by
      intro hIsChain
      rw [ExprMoves, expr_of_isChain hIsChain, expr_of_isChain hIsChain,
        hTighter l.tighter (Level.rank_tighter_lt hIsChain)]
      exact Reading.bind_mapLine fun left => hChain left _ (length_expr ..)
    cases l with
    | assignment => exact assignment_moves hShorter (hTighter _ (by decide))
    | conditional => exact conditional_moves hShorter (hTighter _ (by decide))
    | unary => exact unary_moves hShorter
    | primary => exact primary_moves hShorter
    | comma => exact hOfChain rfl
    | equality => exact hOfChain rfl
    | comparison => exact hOfChain rfl
    | term => exact hOfChain rfl
    | factor => exact hOfChain rfl
  · intro l left ts hShorter hLater
    exact chain_moves hShorter hLater

/-! ## Simple statements -/

theorem terminated_mapLine (s : Stmt) (m : Mistake) (ts : List Token) :
    terminated (s.mapLine g) m (g endLine) (ts.map (Token.mapLine g)) =
      (terminated s m endLine ts).mapLine g (Stmt.mapLine g) := by
  rw [terminated, expect_mapLine]
  exact Reading.map_mapLine fun _ => rfl

theorem initializer_mapLine (name : Token) (ts : List Token) :
    initializer (g endLine) (name.mapLine g) (ts.map (Token.mapLine g)) =
      (initializer endLine name ts).mapLine g (Declaration.mapLine g) := by
  cases ts with
  | nil => rfl
  | cons t rest =>
      refine Reading.ite_mapLine ?_ rfl
      rw [expr_mapLine]
      exact Reading.map_mapLine fun _ => rfl

theorem declarator_mapLine (ts : List Token) :
    declarator (g endLine) (ts.map (Token.mapLine g)) =
      (declarator endLine ts).mapLine g (Declaration.mapLine g) := by
  rw [declarator, expect_mapLine]
  exact Reading.bind_mapLine fun name => initializer_mapLine g name _

theorem declarators_mapLine (ts : List Token) :
    declarators (g endLine) (ts.map (Token.mapLine g)) =
      (declarators endLine ts).mapLine g (List.map (Declaration.mapLine g)) := by
  obtain ⟨n, hLength⟩ : ∃ n, ts.length = n := ⟨_, rfl⟩
  induction n using Nat.strongRecOn generalizing ts with
  | ind n ih =>
      rw [declarators_eq, declarators_eq, declarator_mapLine]
      refine Reading.bind_mapLine fun d => ?_
      have hRest := length_declarator endLine ts
      cases hLeft : (declarator endLine ts).rest with
      | nil => rfl
      | cons t after =>
          rw [hLeft, List.length_cons, hLength] at hRest
          refine Reading.ite_mapLine ?_ rfl
          rw [ih after.length hRest after rfl]
          exact Reading.bind_mapLine fun ds => Reading.done_mapLine _ _

theorem declaring_mapLine (ds : List Declaration) :
    declaring (ds.map (Declaration.mapLine g)) = (declaring ds).mapLine g := by
  match ds with
  | [] => rfl
  | [d] => rfl
  | d :: d' :: rest => rfl

theorem declarationStatement_mapLine (ts : List Token) :
    declarationStatement (g endLine) (ts.map (Token.mapLine g)) =
      (declarationStatement endLine ts).mapLine g (Stmt.mapLine g) := by
  rw [declarationStatement, declarators_mapLine]
  refine Reading.bind_mapLine fun ds => ?_
  rw [declaring_mapLine]
  exact terminated_mapLine g _ _ _

theorem printStatement_mapLine (ts : List Token) :
    printStatement (g endLine) (ts.map (Token.mapLine g)) =
      (printStatement endLine ts).mapLine g (Stmt.mapLine g) := by
  rw [printStatement, expr_mapLine]
  exact Reading.bind_mapLine fun e => terminated_mapLine g (.print e) _ _

theorem expressionStatement_mapLine (ts : List Token) :
    expressionStatement (g endLine) (ts.map (Token.mapLine g)) =
      (expressionStatement endLine ts).mapLine g (Stmt.mapLine g) := by
  rw [expressionStatement, expr_mapLine]
  exact Reading.bind_mapLine fun e => terminated_mapLine g (.expression e) _ _

/-! ## Items -/

/-- The item on other lines. -/
def Item.mapLine (item : Item) : Item :=
  ⟨item.stmt?.map (Stmt.mapLine g), item.reports.map (Diagnostic.mapLine g)⟩

theorem filterMap_stmt?_mapLine (body : List Item) :
    (body.map (Item.mapLine g)).filterMap Item.stmt? =
      Stmt.mapLineAll g (body.filterMap Item.stmt?) := by
  induction body with
  | nil => rfl
  | cons item body ih =>
      obtain ⟨stmt?, reports⟩ := item
      cases stmt? with
      | none => exact ih
      | some s => exact congrArg (s.mapLine g :: ·) ih

theorem flatMap_reports_mapLine (body : List Item) :
    (body.map (Item.mapLine g)).flatMap Item.reports =
      (body.flatMap Item.reports).map (Diagnostic.mapLine g) := by
  rw [List.flatMap_map, List.map_flatMap]
  rfl

/-- Recovery skips as many tokens on all lines. -/
theorem synchronize_mapLine (ts : List Token) :
    synchronize (ts.map (Token.mapLine g)) = (synchronize ts).map (Token.mapLine g) := by
  induction ts with
  | nil => rfl
  | cons t rest ih =>
      have hStart : startsStatement (rest.map (Token.mapLine g)) = startsStatement rest := by
        cases rest <;> rfl
      simp only [List.map_cons, synchronize, Token.kind_mapLine, hStart]
      split
      · rfl
      · split
        · rfl
        · exact ih

theorem settle_mapLine (r : Reading Stmt) :
    settle (r.mapLine g (Stmt.mapLine g)) =
      ((settle r).1.mapLine g, (settle r).2.map (Token.mapLine g)) := by
  obtain ⟨outcome, rest, reports, damaged⟩ := r
  cases outcome with
  | ok s => cases damaged <;> rfl
  | error d => simp [settle, Reading.mapLine, Except.map, Except.mapError, Item.mapLine,
      synchronize_mapLine]

theorem closeBlock_mapLine (body : List Item) (ts : List Token) :
    closeBlock (g endLine) (body.map (Item.mapLine g)) (ts.map (Token.mapLine g)) =
      (closeBlock endLine body ts).mapLine g (Stmt.mapLine g) := by
  have hClosed : ((expect .rightBrace .noBraceAfterBlock (g endLine)
      (ts.map (Token.mapLine g))).map fun _ =>
        Stmt.block ((body.map (Item.mapLine g)).filterMap Item.stmt?)) =
      ((expect .rightBrace .noBraceAfterBlock endLine ts).map fun _ =>
        Stmt.block (body.filterMap Item.stmt?)).mapLine g (Stmt.mapLine g) := by
    rw [expect_mapLine, filterMap_stmt?_mapLine]
    exact Reading.map_mapLine fun _ => rfl
  have hGaps : ((body.map (Item.mapLine g)).any fun item => item.stmt?.isNone) =
      body.any fun item => item.stmt?.isNone := by
    simp [List.any_map, Item.mapLine, Function.comp_def]
  simp only [closeBlock, hClosed, hGaps, flatMap_reports_mapLine]
  rfl

/--
Statements and items are read the same on all lines. The induction is on the number of
tokens, as for the recursion of the two: a block calls the loop on fewer tokens, and each
turn of the loop leaves fewer tokens than it was given.
-/
theorem statement_mapLine_and_items_mapLine (ts : List Token) :
    statement (g endLine) (ts.map (Token.mapLine g)) =
        (statement endLine ts).mapLine g (Stmt.mapLine g) ∧
      ∀ nested, items (g endLine) nested (ts.map (Token.mapLine g)) =
        ((items endLine nested ts).1.map (Item.mapLine g),
          (items endLine nested ts).2.map (Token.mapLine g)) := by
  obtain ⟨n, hLength⟩ : ∃ n, ts.length = n := ⟨_, rfl⟩
  induction n using Nat.strongRecOn generalizing ts with
  | ind n ih =>
      cases ts with
      | nil =>
          refine ⟨?_, fun nested => ?_⟩
          · rw [List.map_nil, statement_nil, statement_nil]
            exact expressionStatement_mapLine g []
          · rw [List.map_nil, items_nil, items_nil]
            rfl
      | cons t rest =>
          have hShorter : rest.length < n := hLength ▸ Nat.lt_succ_self _
          have hStatement : statement (g endLine) ((t :: rest).map (Token.mapLine g)) =
              (statement endLine (t :: rest)).mapLine g (Stmt.mapLine g) := by
            rw [List.map_cons, statement_cons, statement_cons, Token.kind_mapLine]
            split
            · exact declarationStatement_mapLine g rest
            · split
              · exact printStatement_mapLine g rest
              · split
                · rw [(ih _ hShorter rest rfl).2 true]
                  exact closeBlock_mapLine g _ _
                · exact expressionStatement_mapLine g (t :: rest)
          refine ⟨hStatement, fun nested => ?_⟩
          have hSettle := @length_settle_statement endLine t rest
          rw [hLength] at hSettle
          rw [List.map_cons, items_cons, items_cons, Token.kind_mapLine, ← List.map_cons,
            hStatement, settle_mapLine]
          split
          · rfl
          · simp only [(ih _ hSettle _ rfl).2 nested]
            rfl

/-! ## Programs -/

theorem endLineOf_mapLine {ts : List Token} (h : ts ≠ []) :
    endLineOf (ts.map (Token.mapLine g)) = g (endLineOf ts) := by
  have hFind : (ts.map (Token.mapLine g)).find? (·.kind = .endOfFile) =
      (ts.find? (·.kind = .endOfFile)).map (Token.mapLine g) := by
    rw [List.find?_map]
    rfl
  rw [endLineOf, endLineOf, hFind]
  cases ts.find? (·.kind = .endOfFile) with
  | some mark => rfl
  | none =>
      rw [List.getLast?_map, List.getLast?_eq_some_getLast h]
      rfl

theorem beforeEnd_mapLine (ts : List Token) :
    beforeEnd (ts.map (Token.mapLine g)) = (beforeEnd ts).map (Token.mapLine g) := by
  rw [beforeEnd, beforeEnd, List.takeWhile_map]
  rfl

/-- **A program is read the same on all lines**, and so are the mistakes in it. -/
theorem parse_mapLine (ts : List Token) :
    parse (ts.map (Token.mapLine g)) =
      ⟨Stmt.mapLineAll g (parse ts).program,
        (parse ts).diagnostics.map (Diagnostic.mapLine g)⟩ := by
  by_cases hTokens : ts = []
  · subst hTokens
    simp [parse, beforeEnd, items_nil, Stmt.mapLineAll]
  · have hItems := (@statement_mapLine_and_items_mapLine (endLineOf ts) g (beforeEnd ts)).2 false
    simp only [parse, endLineOf_mapLine g hTokens, beforeEnd_mapLine, hItems,
      filterMap_stmt?_mapLine, flatMap_reports_mapLine]

end TinyScript.Grammar
