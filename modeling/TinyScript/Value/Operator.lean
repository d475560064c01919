import TinyScript.Token.Kind
import TinyScript.Value.Basic

/-!
# Operators

The operators of the language and what they do to values. An operator fails with a
cause; where it stands in the program is for its caller to add.
-/

namespace TinyScript

open Token (Kind)

/-- Operators with one operand. -/
inductive UnaryOp where
  | neg
  | not
deriving DecidableEq, Repr

/-- Operators with two operands. -/
inductive BinaryOp where
  | eq
  | notEq
  | greater
  | greaterEq
  | less
  | lessEq
  | add
  | sub
  | mul
  | div
deriving DecidableEq, Repr

/-- Why a run fails. -/
inductive Cause where
  | operandNotNumber
  | operandsNotNumbers
  | divisionByZero
  | notAddable
  | notComparable
  | uninitialized (name : String)
  | undefined (name : String)
  | malformed
deriving DecidableEq, Repr

/-- What a failed run says about its cause. -/
def Cause.message : Cause → String
  | .operandNotNumber => "Operand must be a number"
  | .operandsNotNumbers => "Operands must be numbers."
  | .divisionByZero => "Arithmetic division by 0"
  | .notAddable => "Operands must be two numbers or at least one of them is string."
  | .notComparable => "Operands must be two numbers or two strings."
  | .uninitialized name => "Variable '" ++ name ++ "' might not have been initialized"
  | .undefined name => "Undefined variable '" ++ name ++ "'."
  | .malformed => "Cannot evaluate a malformed expression."

namespace UnaryOp

/-- Every unary operator. -/
def all : List UnaryOp := [.neg, .not]

/-- The operator that a token kind stands for in front of its operand. -/
def ofKind? : Kind → Option UnaryOp
  | .minus => some .neg
  | .bang => some .not
  | _ => none

/-- How the operator is written. -/
def symbol : UnaryOp → String
  | .neg => "-"
  | .not => "!"

/-- The unary operator with the given symbol. -/
def ofSymbol? (s : String) : Option UnaryOp :=
  all.find? fun op => op.symbol == s

/-- Applies the operator. -/
def apply (op : UnaryOp) (v : Value) : Except Cause Value :=
  match op, v with
  | .neg, .number x => .ok (.number (-x))
  | .neg, _ => .error .operandNotNumber
  | .not, v => .ok (.bool (!v.truthy))

end UnaryOp

namespace BinaryOp

/-- Every binary operator. -/
def all : List BinaryOp :=
  [.eq, .notEq, .greater, .greaterEq, .less, .lessEq, .add, .sub, .mul, .div]

/-- The operator that a token kind stands for between its operands. -/
def ofKind? : Kind → Option BinaryOp
  | .equalEqual => some .eq
  | .bangEqual => some .notEq
  | .greater => some .greater
  | .greaterEqual => some .greaterEq
  | .less => some .less
  | .lessEqual => some .lessEq
  | .plus => some .add
  | .minus => some .sub
  | .star => some .mul
  | .slash => some .div
  | _ => none

/-- How the operator is written. -/
def symbol : BinaryOp → String
  | .eq => "=="
  | .notEq => "!="
  | .greater => ">"
  | .greaterEq => ">="
  | .less => "<"
  | .lessEq => "<="
  | .add => "+"
  | .sub => "-"
  | .mul => "*"
  | .div => "/"

/-- The binary operator with the given symbol. -/
def ofSymbol? (s : String) : Option BinaryOp :=
  all.find? fun op => op.symbol == s

/-- How two numbers compare: not at all if one of them is no number. -/
def compareNumbers (x y : Float) : Option Ordering :=
  if x < y then some .lt
  else if y < x then some .gt
  else if x == y then some .eq
  else none

/-- Numbers compare as numbers and strings character by character; nothing else compares. -/
def compareValues : Value → Value → Except Cause (Option Ordering)
  | .number x, .number y => .ok (compareNumbers x y)
  | .text s, .text t => .ok (some (compareOfLessAndEq s t))
  | _, _ => .error .notComparable

/-- Whether the operands stand in a relation; two that do not compare stand in none. -/
def relation (holds : Ordering → Bool) (v w : Value) : Except Cause Value := do
  let order ← compareValues v w
  return .bool (order.any holds)

/-- Addition of numbers, or concatenation of display forms as soon as one operand is a string. -/
def sum : Value → Value → Except Cause Value
  | .number x, .number y => .ok (.number (x + y))
  | .text s, w => .ok (.text (s ++ w.display))
  | v, .text t => .ok (.text (v.display ++ t))
  | _, _ => .error .notAddable

/-- An operation that only numbers take. -/
def arithmetic (f : Float → Float → Except Cause Float) : Value → Value → Except Cause Value
  | .number x, .number y => (f x y).map .number
  | _, _ => .error .operandsNotNumbers

/-- Division of numbers; a zero of either sign divides nothing. -/
def quotient (x y : Float) : Except Cause Float :=
  if y == 0 then .error .divisionByZero else .ok (x / y)

/-- Applies the operator. -/
def apply (op : BinaryOp) (v w : Value) : Except Cause Value :=
  match op with
  | .eq => .ok (.bool (v == w))
  | .notEq => .ok (.bool (v != w))
  | .greater => relation (· == .gt) v w
  | .greaterEq => relation (· != .lt) v w
  | .less => relation (· == .lt) v w
  | .lessEq => relation (· != .gt) v w
  | .add => sum v w
  | .sub => arithmetic (fun x y => .ok (x - y)) v w
  | .mul => arithmetic (fun x y => .ok (x * y)) v w
  | .div => arithmetic quotient v w

end BinaryOp

end TinyScript
