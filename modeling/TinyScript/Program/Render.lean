import TinyScript.Program.Basic

/-!
# Trees as text

The fully parenthesised form of a tree, operator first, in which precedence and
grouping can be read off: `(+ 1.0 (* 2.0 3.0))`. Strings stand in it in their literal
form, so it depends on which characters count as visible.
-/

namespace TinyScript

section Visible

variable (visible : Char → Bool)

/-- Text of an expression, where `visible` tells the visible characters. -/
def Expr.renderBy : Expr → String
  | .literal value => value.literalBy visible
  | .group inner => "(group " ++ inner.renderBy ++ ")"
  | .unary op _ operand => "(" ++ op.symbol ++ " " ++ operand.renderBy ++ ")"
  | .binary op _ left right =>
    "(" ++ op.symbol ++ " " ++ left.renderBy ++ " " ++ right.renderBy ++ ")"
  | .conditional condition thenBranch elseBranch =>
    "(?: " ++ condition.renderBy ++ " " ++ thenBranch.renderBy ++ " " ++ elseBranch.renderBy ++ ")"
  | .comma left right => "(, " ++ left.renderBy ++ " " ++ right.renderBy ++ ")"
  | .variable name => name.lexeme
  | .assign name value => "(= " ++ name.lexeme ++ " " ++ value.renderBy ++ ")"
  | .missing => "<error>"

/-- Text of a declared name. -/
def Declaration.renderBy (d : Declaration) : String :=
  match d.initializer with
  | some e => "(var " ++ d.name.lexeme ++ " " ++ e.renderBy visible ++ ")"
  | none => "(var " ++ d.name.lexeme ++ ")"

mutual

/-- Text of a statement. -/
def Stmt.renderBy : Stmt → String
  | .expression e => "(; " ++ e.renderBy visible ++ ")"
  | .print e => "(print " ++ e.renderBy visible ++ ")"
  | .declare d => d.renderBy visible
  | .declareAll ds => ds.foldl (fun text d => text ++ " " ++ d.renderBy visible) "(vars" ++ ")"
  | .block body => Stmt.renderAllBy "(block" body ++ ")"

/-- Text of statements after `text`, each with a space before it. -/
def Stmt.renderAllBy (text : String) : List Stmt → String
  | [] => text
  | s :: rest => Stmt.renderAllBy (text ++ " " ++ s.renderBy) rest

end

end Visible

/-- Text of a statement, with the table of visible characters. -/
def Stmt.render (s : Stmt) : String :=
  s.renderBy Text.isVisible

end TinyScript
