import TinyScript.Proofs.Grammar.Tree
import TinyScript.Proofs.Machine.Faults
import TinyScript.Proofs.Program.Lines

/-!
# Runs on other lines

A run never looks at a line. On other lines a program does what it does on its own: it
changes the machine in the same way, prints the same and stops at the same place, only
that the token it stops at has moved with the program. The one fault that is no token of
the program, that of a placeholder, is why this is said of trees of the grammar alone.

Statements in a row are run one after the other, so a program can be run in two parts.

## Main results

* `Expr.eval_mapLine`, `Machine.executeAll_mapLineAll`, `Machine.runLine_mapLineAll`: runs on
  other lines.
* `Machine.executeAll_append`: runs in two parts.
-/

namespace TinyScript

open Grammar

/-- The fault with its token on another line. -/
def Fault.mapLine (g : Nat → Nat) (f : Fault) : Fault :=
  { f with token := f.token.mapLine g }

namespace Run

variable {σ α β : Type}

/-- The run with its fault, if there is one, on another line. -/
def mapLine (g : Nat → Nat) (r : Run σ α) : Run σ α :=
  (r.1.mapError (Fault.mapLine g), r.2)

variable {g : Nat → Nat}

/-- To move a sequence of runs, move each of them. -/
theorem andThen_mapLine {next next' : α → σ → Run σ β} (r : Run σ α)
    (hNext : ∀ a s, next' a s = (next a s).mapLine g) :
    (r.mapLine g).andThen next' = (r.andThen next).mapLine g := by
  obtain ⟨result, s⟩ := r
  cases result with
  | ok a => exact hNext a s
  | error fault => rfl

theorem ofOperator_mapLine (t : Token) (s : σ) (x : Except Cause Value) :
    ofOperator (t.mapLine g) s x = (ofOperator t s x).mapLine g := by
  cases x <;> rfl

end Run

variable {g : Nat → Nat}

/-! ## Expressions -/

theorem Environment.read_mapLine (env : Environment) (name : Token) :
    env.read (name.mapLine g) = (env.read name).mapError (Fault.mapLine g) := by
  unfold Environment.read
  rw [Token.lexeme_mapLine]
  split <;> rfl

/-- An expression of the grammar has the same value on all lines. -/
theorem Expr.eval_mapLine {e : Expr} {l : Level} (h : l.Admits e) (env : Environment) :
    (e.mapLine g).eval env = (e.eval env).mapLine g := by
  induction e generalizing l env with
  | literal v => rfl
  | group inner ih => exact ih h env
  | unary op operator operand ih =>
      show ((operand.mapLine g).eval env).andThen _ = _
      rw [ih h.2.2]
      exact Run.andThen_mapLine _ fun v env => Run.ofOperator_mapLine _ _ _
  | binary op operator left right ihLeft ihRight =>
      obtain ⟨-, -, hLeft, hRight⟩ := h
      show ((left.mapLine g).eval env).andThen _ = _
      rw [ihLeft hLeft]
      refine Run.andThen_mapLine _ fun v env => ?_
      rw [ihRight hRight]
      exact Run.andThen_mapLine _ fun w env => Run.ofOperator_mapLine _ _ _
  | conditional condition thenBranch elseBranch ihCondition ihThen ihElse =>
      obtain ⟨-, hCondition, hThen, hElse⟩ := h
      show ((condition.mapLine g).eval env).andThen _ = _
      rw [ihCondition hCondition]
      refine Run.andThen_mapLine _ fun v env => ?_
      rw [ihThen hThen, ihElse hElse]
      split <;> rfl
  | comma left right ihLeft ihRight =>
      obtain ⟨-, hLeft, hRight⟩ := h
      show ((left.mapLine g).eval env).andThen _ = _
      rw [ihLeft hLeft]
      exact Run.andThen_mapLine _ fun v env => ihRight hRight env
  | «variable» name => exact Prod.ext (env.read_mapLine name) rfl
  | assign name value ih =>
      show ((value.mapLine g).eval env).andThen _ = _
      rw [ih h.2.2]
      refine Run.andThen_mapLine _ fun v env => ?_
      rw [Token.lexeme_mapLine]
      cases env.assign? name.lexeme v <;> rfl
  | missing => cases h

namespace Machine

theorem eval_mapLine {e : Expr} {l : Level} (h : l.Admits e) (m : Machine) :
    m.eval (e.mapLine g) = (m.eval e).mapLine g := by
  show (((e.mapLine g).eval m.env).1, _) = _
  rw [Expr.eval_mapLine h]
  rfl

/-! ## Statements -/

theorem declare_mapLine {d : Declaration} (h : d.WellFormed) (m : Machine) :
    m.declare (d.mapLine g) = (m.declare d).mapLine g := by
  obtain ⟨name, init⟩ := d
  cases init with
  | none => rfl
  | some e =>
      show ((m.define name.lexeme .uninitialized).eval (e.mapLine g)).andThen _ = _
      rw [eval_mapLine (h.2 e rfl)]
      exact Run.andThen_mapLine _ fun v m => rfl

theorem declareAll_mapLine {ds : List Declaration} (h : ∀ d ∈ ds, d.WellFormed) (m : Machine) :
    m.declareAll (ds.map (Declaration.mapLine g)) = (m.declareAll ds).mapLine g := by
  induction ds generalizing m with
  | nil => rfl
  | cons d ds ih =>
      obtain ⟨hHead, hRest⟩ := List.forall_mem_cons.1 h
      show (m.declare (d.mapLine g)).andThen _ = _
      rw [declare_mapLine hHead]
      exact Run.andThen_mapLine _ fun _ m => ih hRest m

mutual

/-- A well-formed statement does the same on all lines. -/
theorem execute_mapLine : ∀ (s : Stmt) (m : Machine), s.WellFormed →
    m.execute (s.mapLine g) = (m.execute s).mapLine g
  | .expression e, m, h => by
      show (m.eval (e.mapLine g)).andThen _ = _
      rw [eval_mapLine h]
      exact Run.andThen_mapLine _ fun v m => rfl
  | .print e, m, h => by
      show (m.eval (e.mapLine g)).andThen _ = _
      rw [eval_mapLine h]
      exact Run.andThen_mapLine _ fun v m => rfl
  | .declare d, m, h => declare_mapLine h m
  | .declareAll ds, m, h => declareAll_mapLine h.2 m
  | .block body, m, h => by
      show ((m.enter.executeAll (Stmt.mapLineAll g body)).1, _) = _
      rw [executeAll_mapLineAll body m.enter h]
      rfl

/-- A well-formed program does the same on all lines. -/
theorem executeAll_mapLineAll : ∀ (ss : List Stmt) (m : Machine), Stmt.WellFormedAll ss →
    m.executeAll (Stmt.mapLineAll g ss) = (m.executeAll ss).mapLine g
  | [], m, _ => rfl
  | s :: ss, m, h => by
      show (m.execute (s.mapLine g)).andThen _ = _
      rw [execute_mapLine s m h.1]
      exact Run.andThen_mapLine _ fun _ m => executeAll_mapLineAll ss m h.2

end

/-- At a prompt a well-formed program does the same on all lines. -/
theorem runLine_mapLineAll (ss : List Stmt) (m : Machine) (h : Stmt.WellFormedAll ss) :
    m.runLine (Stmt.mapLineAll g ss) = (m.runLine ss).mapLine g := by
  have hForm := Stmt.wellFormedAll_iff.1 h
  have hLast : (Stmt.mapLineAll g ss).getLast? = ss.getLast?.map (Stmt.mapLine g) := by
    rw [Stmt.mapLineAll_eq_map, List.getLast?_map]
  have hInit : (Stmt.mapLineAll g ss).dropLast = Stmt.mapLineAll g ss.dropLast := by
    rw [Stmt.mapLineAll_eq_map, Stmt.mapLineAll_eq_map, List.map_dropLast]
  unfold runLine
  rw [hLast, hInit]
  rcases hSome : ss.getLast? with _ | (last | _ | _ | _ | _)
  case some.expression =>
    have hInner : Stmt.WellFormedAll ss.dropLast :=
      Stmt.wellFormedAll_iff.2 fun s hs => hForm s (List.dropLast_subset _ hs)
    have hFinal : (Stmt.expression last).WellFormed := hForm _ (List.mem_of_getLast? hSome)
    show (m.executeAll (Stmt.mapLineAll g ss.dropLast)).andThen _ = _
    rw [executeAll_mapLineAll _ m hInner]
    refine Run.andThen_mapLine _ fun _ m => ?_
    rw [eval_mapLine hFinal]
    exact Run.andThen_mapLine _ fun v m => rfl
  all_goals exact executeAll_mapLineAll ss m h

/-! ## Programs in two parts -/

/-- The second part is run on the machine that the first part leaves, if it finishes. -/
theorem executeAll_append (m : Machine) (p q : List Stmt) :
    m.executeAll (p ++ q) = (m.executeAll p).andThen fun _ m => m.executeAll q := by
  induction p generalizing m with
  | nil => rfl
  | cons s p ih =>
      show (m.execute s).andThen _ = ((m.execute s).andThen _).andThen _
      obtain ⟨result, m'⟩ := m.execute s
      cases result with
      | ok _ => exact ih m'
      | error fault => rfl

end Machine

end TinyScript
