import TinyScript.Diagnostic.Basic
import TinyScript.Program.Basic

/-!
# Programs on other lines

A token carries the line it stands on, and so does a diagnostic; a tree carries the tokens
of its names and operators. `mapLine` puts each of them on other lines and changes nothing
else. No stage looks at a line: what is read and run on other lines is what is read and run,
moved along with them.
-/

namespace TinyScript

/-- The token on the line that `g` gives for its own. -/
def Token.mapLine (g : Nat → Nat) (t : Token) : Token :=
  { t with line := g t.line }

namespace Token

variable (g : Nat → Nat) (t : Token)

@[simp]
theorem kind_mapLine : (t.mapLine g).kind = t.kind :=
  rfl

@[simp]
theorem lexeme_mapLine : (t.mapLine g).lexeme = t.lexeme :=
  rfl

@[simp]
theorem payload_mapLine : (t.mapLine g).payload = t.payload :=
  rfl

@[simp]
theorem line_mapLine : (t.mapLine g).line = g t.line :=
  rfl

end Token

/-- The diagnostic on the line that `g` gives for its own. -/
def Diagnostic.mapLine (g : Nat → Nat) (d : Diagnostic) : Diagnostic :=
  { d with line := g d.line }

/-! ## Trees -/

/-- The expression with its tokens on other lines. -/
def Expr.mapLine (g : Nat → Nat) : Expr → Expr
  | .literal v => .literal v
  | .group inner => .group (inner.mapLine g)
  | .unary op operator operand => .unary op (operator.mapLine g) (operand.mapLine g)
  | .binary op operator left right =>
    .binary op (operator.mapLine g) (left.mapLine g) (right.mapLine g)
  | .conditional condition thenBranch elseBranch =>
    .conditional (condition.mapLine g) (thenBranch.mapLine g) (elseBranch.mapLine g)
  | .comma left right => .comma (left.mapLine g) (right.mapLine g)
  | .variable name => .variable (name.mapLine g)
  | .assign name value => .assign (name.mapLine g) (value.mapLine g)
  | .missing => .missing

/-- The declaration with its tokens on other lines. -/
def Declaration.mapLine (g : Nat → Nat) (d : Declaration) : Declaration :=
  ⟨d.name.mapLine g, d.initializer.map (Expr.mapLine g)⟩

namespace Stmt

mutual

/-- The statement with its tokens on other lines. -/
def mapLine (g : Nat → Nat) : Stmt → Stmt
  | .expression e => .expression (e.mapLine g)
  | .print e => .print (e.mapLine g)
  | .declare d => .declare (d.mapLine g)
  | .declareAll ds => .declareAll (ds.map (Declaration.mapLine g))
  | .block body => .block (mapLineAll g body)

/-- The statements with their tokens on other lines. -/
def mapLineAll (g : Nat → Nat) : List Stmt → List Stmt
  | [] => []
  | s :: rest => s.mapLine g :: mapLineAll g rest

end

theorem mapLineAll_eq_map (g : Nat → Nat) (ss : List Stmt) :
    mapLineAll g ss = ss.map (mapLine g) := by
  induction ss with
  | nil => rfl
  | cons s rest ih => exact congrArg (s.mapLine g :: ·) ih

end Stmt

end TinyScript
