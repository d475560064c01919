import TinyScript.Program.Basic

/-!
# Levels of the grammar

Expressions are read level by level, from the comma, which binds least, to the
primary expressions, which bind most. Five of the levels are chains: operands of the
next tighter level, joined from left to right by the operators of the level.
-/

namespace TinyScript.Grammar

open Token (Kind)

/-- The levels of the expression grammar, the loosest first. -/
inductive Level where
  | comma
  | assignment
  | conditional
  | equality
  | comparison
  | term
  | factor
  | unary
  | primary
deriving DecidableEq, Repr

namespace Level

/-- How many levels are tighter than this one. -/
def rank : Level → Nat
  | .comma => 8
  | .assignment => 7
  | .conditional => 6
  | .equality => 5
  | .comparison => 4
  | .term => 3
  | .factor => 2
  | .unary => 1
  | .primary => 0

/-- The next tighter level; there is none below the primary expressions. -/
def tighter : Level → Level
  | .comma => .assignment
  | .assignment => .conditional
  | .conditional => .equality
  | .equality => .comparison
  | .comparison => .term
  | .term => .factor
  | .factor => .unary
  | .unary => .primary
  | .primary => .primary

/-- The operator that a kind of token is at a level. -/
def operator? : Level → Kind → Option BinaryOp
  | .equality, .equalEqual => some .eq
  | .equality, .bangEqual => some .notEq
  | .comparison, .greater => some .greater
  | .comparison, .greaterEqual => some .greaterEq
  | .comparison, .less => some .less
  | .comparison, .lessEqual => some .lessEq
  | .term, .plus => some .add
  | .term, .minus => some .sub
  | .factor, .star => some .mul
  | .factor, .slash => some .div
  | _, _ => none

/-- How a token joins two operands at a level, if it does. -/
def join? (l : Level) (t : Token) : Option (Expr → Expr → Expr) :=
  if l = .comma then
    if t.kind = .comma then some .comma else none
  else
    (l.operator? t.kind).map fun op => .binary op t

/--
The level at which the right operand of an operator is read when the left one is
missing. A minus is not among these operators, since it may lead an operand.
-/
def ofOrphan? : Kind → Option Level
  | .bangEqual => some .equality
  | .equalEqual => some .equality
  | .greater => some .comparison
  | .greaterEqual => some .comparison
  | .less => some .comparison
  | .lessEqual => some .comparison
  | .plus => some .factor
  | .star => some .factor
  | .slash => some .factor
  | _ => none

end Level

/-- The value of a token that is a literal by itself. -/
def literal? (t : Token) : Option Value :=
  match t.kind, t.payload with
  | .kwFalse, _ => some (.bool false)
  | .kwTrue, _ => some (.bool true)
  | .kwNil, _ => some .nil
  | .number, some (.number x) => some (.number x)
  | .text, some (.text s) => some (.text s)
  | _, _ => none

end TinyScript.Grammar
