import TinyScript.Machine.Output
import TinyScript.Program.Basic
import TinyScript.Scope.Environment

/-!
# Running programs

Evaluating an expression reads and changes the environment and prints nothing;
executing a statement may print. Either stops at the first fault, which names the token
at fault, and what was done before stays done.

Main definitions:

* `Expr.eval`: the value of an expression;
* `Machine.execute`, `Machine.executeAll`: statements in order;
* `Machine.enter`, `Machine.leave`: the frame of a block, left on every exit.
-/

namespace TinyScript

/-- Why a run stopped, and at which token. -/
structure Fault where
  cause : Cause
  token : Token

/-- The result of a run that changes a state on the way, finished or not. -/
abbrev Run (σ α : Type) : Type :=
  Except Fault α × σ

namespace Run

/-- Goes on with the result, unless the run has stopped. The state is kept in any case. -/
@[inline] def andThen {σ α β : Type} (r : Run σ α) (f : α → σ → Run σ β) : Run σ β :=
  match r with
  | (.ok a, s) => f a s
  | (.error fault, s) => (.error fault, s)

/-- The result of an operator, its fault placed at the operator's token. -/
def ofOperator {σ : Type} (operator : Token) (s : σ) : Except Cause Value → Run σ Value
  | .ok v => (.ok v, s)
  | .error cause => (.error ⟨cause, operator⟩, s)

end Run

/-- The value of a variable. -/
def Environment.read (env : Environment) (name : Token) : Except Fault Value :=
  match env.get? name.lexeme with
  | some (.initialized v) => .ok v
  | some .uninitialized => .error ⟨.uninitialized name.lexeme, name⟩
  | none => .error ⟨.undefined name.lexeme, name⟩

/-- The value of an expression; operands are evaluated from left to right. -/
def Expr.eval : Expr → Environment → Run Environment Value
  | .literal v, env => (.ok v, env)
  | .group inner, env => inner.eval env
  | .unary op operator operand, env =>
    (operand.eval env).andThen fun v env => .ofOperator operator env (op.apply v)
  | .binary op operator left right, env =>
    (left.eval env).andThen fun v env =>
      (right.eval env).andThen fun w env => .ofOperator operator env (op.apply v w)
  | .conditional condition thenBranch elseBranch, env =>
    (condition.eval env).andThen fun v env =>
      if v.truthy then thenBranch.eval env else elseBranch.eval env
  | .comma left right, env =>
    (left.eval env).andThen fun _ env => right.eval env
  | .variable name, env => (env.read name, env)
  | .assign name value, env =>
    (value.eval env).andThen fun v env =>
      match env.assign? name.lexeme v with
      | some env => (.ok v, env)
      | none => (.error ⟨.undefined name.lexeme, name⟩, env)
  | .missing, env => (.error ⟨.malformed, Token.endOfFile 0⟩, env)

/-- What a run works on. -/
structure Machine where
  env : Environment
  output : Output

namespace Machine

/-- A machine with no names, printing to the given output. -/
def new (output : Output) : Machine := ⟨.new, output⟩

/-- Prints the display form of a value. -/
def print (m : Machine) (v : Value) : Machine :=
  { m with output := m.output.println v.display }

/-- The value of an expression on this machine. -/
def eval (m : Machine) (e : Expr) : Run Machine Value :=
  let (result, env) := e.eval m.env
  (result, { m with env })

/-- Opens the frame of a block. -/
def enter (m : Machine) : Machine :=
  { m with env := m.env.push }

/-- Closes the frame of a block. -/
def leave (m : Machine) : Machine :=
  { m with env := m.env.pop }

/-- Binds a name in the current frame. -/
def define (m : Machine) (name : String) (b : Binding) : Machine :=
  { m with env := m.env.define name b }

/-- Declares a name. It is bound, without a value, before its initial value is evaluated. -/
def declare (m : Machine) (d : Declaration) : Run Machine Unit :=
  let declared := m.define d.name.lexeme .uninitialized
  match d.initializer with
  | none => (.ok (), declared)
  | some e =>
    (declared.eval e).andThen fun v m => (.ok (), m.define d.name.lexeme (.initialized v))

/-- Declares names in order. -/
def declareAll (m : Machine) : List Declaration → Run Machine Unit
  | [] => (.ok (), m)
  | d :: rest => (m.declare d).andThen fun _ m => m.declareAll rest

mutual

/-- Executes a statement. -/
def execute (m : Machine) : Stmt → Run Machine Unit
  | .expression e => (m.eval e).andThen fun _ m => (.ok (), m)
  | .print e => (m.eval e).andThen fun v m => (.ok (), m.print v)
  | .declare d => m.declare d
  | .declareAll ds => m.declareAll ds
  | .block body =>
    let (result, m) := executeAll m.enter body
    (result, m.leave)

/-- Executes statements in order. -/
def executeAll (m : Machine) : List Stmt → Run Machine Unit
  | [] => (.ok (), m)
  | s :: rest => (execute m s).andThen fun _ m => executeAll m rest

end

end Machine

end TinyScript
