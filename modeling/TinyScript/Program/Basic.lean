import TinyScript.Token.Basic
import TinyScript.Value.Operator

/-!
# Programs

The trees that a source is read into. Names and operators keep their tokens, since a
failed run reports the token at fault; what an operator does is fixed by its tag.
-/

namespace TinyScript

/-- An expression. -/
inductive Expr where
  | literal (value : Value)
  | group (inner : Expr)
  | unary (op : UnaryOp) (operator : Token) (operand : Expr)
  | binary (op : BinaryOp) (operator : Token) (left right : Expr)
  | conditional (condition thenBranch elseBranch : Expr)
  | comma (left right : Expr)
  | variable (name : Token)
  | assign (name : Token) (value : Expr)
  /-- Stands where an operand is missing; a finished program holds none. -/
  | missing
deriving BEq

/-- A declared name with its initial value. -/
structure Declaration where
  name : Token
  initializer : Option Expr
deriving BEq

/-- A statement. -/
inductive Stmt where
  | expression (e : Expr)
  | print (e : Expr)
  | declare (d : Declaration)
  | declareAll (ds : List Declaration)
  | block (body : List Stmt)

mutual

/-- Whether two statements are the same tree, with equal values and tokens. -/
def Stmt.same : Stmt → Stmt → Bool
  | .expression e, .expression e' => e == e'
  | .print e, .print e' => e == e'
  | .declare d, .declare d' => d == d'
  | .declareAll ds, .declareAll ds' => ds == ds'
  | .block body, .block body' => Stmt.sameAll body body'
  | _, _ => false

/-- Whether two lists of statements are the same, one by one. -/
def Stmt.sameAll : List Stmt → List Stmt → Bool
  | [], [] => true
  | s :: rest, s' :: rest' => s.same s' && Stmt.sameAll rest rest'
  | _, _ => false

end

instance : BEq Stmt := ⟨Stmt.same⟩

end TinyScript
