import TinyScript.Grammar.Level
import TinyScript.Grammar.Reading

/-!
# Reading expressions

`expr` reads an expression of a level from the front of a list of tokens. A level
first reads an operand of the next tighter level and then looks at one token to see
whether the level applies; no token is ever read twice.

Two mistakes do not stop the reading. What is no variable on the left of an equals
sign is reported, and stands for the whole assignment. An operator with nothing on
its left is reported, its right operand is read and forgotten, and a placeholder
stands for both; a statement with a placeholder is unfit for use.

`exprWithin` is the recursion; the equations of `expr`, one per level, are the API.
-/

namespace TinyScript.Grammar

open Diagnostic (Mistake)
open Token (Kind)

/-- The assignment `target = value`, whose equals sign is `equals`. -/
def assignTo (target : Expr) (equals : Token) (value : Expr) (rest : List Token) : Reading Expr :=
  match target with
  | .variable name => .done (.assign name value) rest
  | _ => { Reading.done target rest with reports := [Mistake.invalidTarget.atToken equals] }

/-- Assigning reads no token. -/
theorem rest_assignTo (target : Expr) (equals : Token) (value : Expr) (rest : List Token) :
    (assignTo target equals value rest).rest = rest := by
  unfold assignTo
  split <;> rfl

/-- The closing parenthesis of a group. -/
def closeGroup (endLine : Nat) (inner : Expr) (ts : List Token) : Reading Expr :=
  (expect .rightParen .noParenAfterExpression endLine ts).map fun _ => .group inner

/-- Closing a group never adds tokens. -/
theorem length_closeGroup (endLine : Nat) (inner : Expr) (ts : List Token) :
    (closeGroup endLine inner ts).rest.length ≤ ts.length := by
  unfold closeGroup
  rw [Reading.rest_map]
  exact length_expect ..

mutual

/-- Reads an expression of a level. -/
def exprWithin (endLine : Nat) (l : Level) (ts : List Token) : Within ts Expr :=
  match l with
  | .comma =>
    (exprWithin endLine .assignment ts).bind fun left rest _ =>
      chainWithin endLine .comma left rest
  | .assignment =>
    (exprWithin endLine .conditional ts).bind fun target rest hRest =>
      match rest with
      | [] => .done target []
      | t :: after =>
        if t.kind = .equal then
          .behind t <| (exprWithin endLine .assignment after).bind fun value left _ =>
            ⟨assignTo target t value left, Nat.le_of_eq (by rw [rest_assignTo])⟩
        else
          .done target (t :: after)
  | .conditional =>
    (exprWithin endLine .equality ts).bind fun condition rest hRest =>
      match rest with
      | [] => .done condition []
      | t :: after =>
        if t.kind = .question then
          .behind t <| (exprWithin endLine .comma after).bind fun thenBranch middle hMiddle =>
            match middle with
            | [] => .fail (mistakeAt .noColonAfterBranch endLine []) []
            | c :: final =>
              if c.kind = .colon then
                .behind c <| (exprWithin endLine .conditional final).bind fun elseBranch left _ =>
                  .done (.conditional condition thenBranch elseBranch) left
              else
                .fail (mistakeAt .noColonAfterBranch endLine (c :: final)) (c :: final)
        else
          .done condition (t :: after)
  | .equality =>
    (exprWithin endLine .comparison ts).bind fun left rest _ =>
      chainWithin endLine .equality left rest
  | .comparison =>
    (exprWithin endLine .term ts).bind fun left rest _ =>
      chainWithin endLine .comparison left rest
  | .term =>
    (exprWithin endLine .factor ts).bind fun left rest _ =>
      chainWithin endLine .term left rest
  | .factor =>
    (exprWithin endLine .unary ts).bind fun left rest _ =>
      chainWithin endLine .factor left rest
  | .unary =>
    match ts with
    | [] => exprWithin endLine .primary []
    | t :: rest =>
      match UnaryOp.ofKind? t.kind with
      | some op =>
        .behind t <| (exprWithin endLine .unary rest).bind fun operand left _ =>
          .done (.unary op t operand) left
      | none => exprWithin endLine .primary (t :: rest)
  | .primary =>
    match ts with
    | [] => .fail (mistakeAt .noExpression endLine []) []
    | t :: rest =>
      match literal? t with
      | some value => .behind t (.done (.literal value) rest)
      | none =>
        if t.kind = .identifier then
          .behind t (.done (.variable t) rest)
        else if t.kind = .leftParen then
          .behind t <| (exprWithin endLine .comma rest).bind fun inner left _ =>
            ⟨closeGroup endLine inner left, length_closeGroup ..⟩
        else
          match Level.ofOrphan? t.kind with
          | some level =>
            let operand := (exprWithin endLine level rest).bind fun _ left _ => .done .missing left
            ⟨operand.val.afterDamage (Mistake.noLeftOperand.atToken t),
              Nat.le_succ_of_le operand.property⟩
          | none => .fail (mistakeAt .noExpression endLine (t :: rest)) (t :: rest)
termination_by (ts.length, 2 * l.rank + 1)
decreasing_by
  all_goals
    simp only [Prod.lex_def, List.length_cons, Level.rank, true_and] at *
    omega

/-- Joins operands to `left` as long as operators of the level follow. -/
def chainWithin (endLine : Nat) (l : Level) (left : Expr) (ts : List Token) : Within ts Expr :=
  match ts with
  | [] => .done left []
  | t :: rest =>
    match l.join? t with
    | some join =>
      .behind t <| (exprWithin endLine l.tighter rest).bind fun right after _ =>
        chainWithin endLine l (join left right) after
    | none => .done left (t :: rest)
termination_by (ts.length, 2 * l.rank)
decreasing_by
  all_goals
    simp only [Prod.lex_def, List.length_cons] at *
    omega

end

/-- Reads an expression of a level from the front of the tokens. -/
def expr (endLine : Nat) (l : Level) (ts : List Token) : Reading Expr :=
  (exprWithin endLine l ts).val

/-- Joins operands to `left` as long as operators of the level follow. -/
def chain (endLine : Nat) (l : Level) (left : Expr) (ts : List Token) : Reading Expr :=
  (chainWithin endLine l left ts).val

/-! ## Equations -/

variable {endLine : Nat}

/-- Reading an expression never adds tokens. -/
theorem length_expr (l : Level) (ts : List Token) :
    (expr endLine l ts).rest.length ≤ ts.length :=
  (exprWithin endLine l ts).property

theorem chain_nil (l : Level) (left : Expr) :
    chain endLine l left [] = .done left [] := by
  rw [chain, chainWithin]
  rfl

theorem chain_cons (l : Level) (left : Expr) (t : Token) (rest : List Token) :
    chain endLine l left (t :: rest) =
      match l.join? t with
      | some join =>
        (expr endLine l.tighter rest).bind fun right after =>
          chain endLine l (join left right) after
      | none => .done left (t :: rest) := by
  rw [chain, chainWithin]
  split
  · rw [Within.val_behind]
    exact Within.val_bind _ _ _ fun _ _ _ => rfl
  · rfl

theorem expr_comma (ts : List Token) :
    expr endLine .comma ts =
      (expr endLine .assignment ts).bind fun left rest => chain endLine .comma left rest := by
  rw [expr, exprWithin]
  exact Within.val_bind _ _ _ fun _ _ _ => rfl

theorem expr_equality (ts : List Token) :
    expr endLine .equality ts =
      (expr endLine .comparison ts).bind fun left rest => chain endLine .equality left rest := by
  rw [expr, exprWithin]
  exact Within.val_bind _ _ _ fun _ _ _ => rfl

theorem expr_comparison (ts : List Token) :
    expr endLine .comparison ts =
      (expr endLine .term ts).bind fun left rest => chain endLine .comparison left rest := by
  rw [expr, exprWithin]
  exact Within.val_bind _ _ _ fun _ _ _ => rfl

theorem expr_term (ts : List Token) :
    expr endLine .term ts =
      (expr endLine .factor ts).bind fun left rest => chain endLine .term left rest := by
  rw [expr, exprWithin]
  exact Within.val_bind _ _ _ fun _ _ _ => rfl

theorem expr_factor (ts : List Token) :
    expr endLine .factor ts =
      (expr endLine .unary ts).bind fun left rest => chain endLine .factor left rest := by
  rw [expr, exprWithin]
  exact Within.val_bind _ _ _ fun _ _ _ => rfl

theorem expr_assignment (ts : List Token) :
    expr endLine .assignment ts =
      (expr endLine .conditional ts).bind fun target rest =>
        match rest with
        | [] => .done target []
        | t :: after =>
          if t.kind = .equal then
            (expr endLine .assignment after).bind fun value left => assignTo target t value left
          else
            .done target (t :: after) := by
  rw [expr, exprWithin]
  refine Within.val_bind _ _ _ fun target rest hRest => ?_
  cases rest with
  | nil => rfl
  | cons t after =>
    by_cases h : t.kind = .equal
    · simp only [h, if_true, Within.val_behind]
      exact Within.val_bind _ _ _ fun _ _ _ => rfl
    · simp only [h, if_false]
      rfl

theorem expr_conditional (ts : List Token) :
    expr endLine .conditional ts =
      (expr endLine .equality ts).bind fun condition rest =>
        match rest with
        | [] => .done condition []
        | t :: after =>
          if t.kind = .question then
            (expr endLine .comma after).bind fun thenBranch middle =>
              match middle with
              | [] => .fail (mistakeAt .noColonAfterBranch endLine []) []
              | c :: final =>
                if c.kind = .colon then
                  (expr endLine .conditional final).bind fun elseBranch left =>
                    .done (.conditional condition thenBranch elseBranch) left
                else
                  .fail (mistakeAt .noColonAfterBranch endLine (c :: final)) (c :: final)
          else
            .done condition (t :: after) := by
  rw [expr, exprWithin]
  refine Within.val_bind _ _ _ fun condition rest hRest => ?_
  cases rest with
  | nil => rfl
  | cons t after =>
    by_cases h : t.kind = .question
    · simp only [h, if_true, Within.val_behind]
      refine Within.val_bind _ _ _ fun thenBranch middle hMiddle => ?_
      cases middle with
      | nil => rfl
      | cons c final =>
        by_cases hColon : c.kind = .colon
        · simp only [hColon, if_true, Within.val_behind]
          exact Within.val_bind _ _ _ fun _ _ _ => rfl
        · simp only [hColon, if_false]
          rfl
    · simp only [h, if_false]
      rfl

theorem expr_unary_nil : expr endLine .unary [] = expr endLine .primary [] := by
  rw [expr, exprWithin]
  rfl

theorem expr_unary_cons (t : Token) (rest : List Token) :
    expr endLine .unary (t :: rest) =
      match UnaryOp.ofKind? t.kind with
      | some op =>
        (expr endLine .unary rest).bind fun operand left => .done (.unary op t operand) left
      | none => expr endLine .primary (t :: rest) := by
  rw [expr, exprWithin]
  split
  · rw [Within.val_behind]
    exact Within.val_bind _ _ _ fun _ _ _ => rfl
  · rfl

theorem expr_primary_nil :
    expr endLine .primary [] = .fail (mistakeAt .noExpression endLine []) [] := by
  rw [expr, exprWithin]
  rfl

theorem expr_primary_cons (t : Token) (rest : List Token) :
    expr endLine .primary (t :: rest) =
      match literal? t with
      | some value => .done (.literal value) rest
      | none =>
        if t.kind = .identifier then
          .done (.variable t) rest
        else if t.kind = .leftParen then
          (expr endLine .comma rest).bind fun inner left => closeGroup endLine inner left
        else
          match Level.ofOrphan? t.kind with
          | some level =>
            ((expr endLine level rest).bind fun _ left => .done .missing left).afterDamage
              (Mistake.noLeftOperand.atToken t)
          | none => .fail (mistakeAt .noExpression endLine (t :: rest)) (t :: rest) := by
  rw [expr, exprWithin]
  split
  · rfl
  · split
    · rfl
    · split
      · rw [Within.val_behind]
        exact Within.val_bind _ _ _ fun _ _ _ => rfl
      · split
        · exact congrArg (Reading.afterDamage _) (Within.val_bind _ _ _ fun _ _ _ => rfl)
        · rfl

end TinyScript.Grammar
