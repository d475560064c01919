import TinyScript.Proofs.Machine.Faults
import TinyScript.Proofs.Scope.Slots

/-!
# Expressions change only what they assign

An expression can assign in any of its operands, and it can stop half-way with some of its
assignments done. Whatever it did, the environment has the same frames with the same names
in them, and a slot that holds something else than before belongs to a name that the
expression assigns, in the innermost frame that binds it, and holds a value now.

`Environment.Assigned` says this of two environments. One assignment gives it, and it can be
chained since the names in the frames never change and so neither do the innermost ones.
`Run.Leaves` carries it along a run, about the state alone, on both ways out.

## Main results

* `Environment.assigned_of_assign?`, `Environment.Assigned.trans`: one assignment, and many.
* `Expr.eval_assigned`: the environment that an expression leaves.
-/

namespace TinyScript

namespace Run

variable {σ α β : Type}

/-- The run leaves a state with the property, whether it finished or not. -/
def Leaves (r : Run σ α) (I : σ → Prop) : Prop :=
  I r.2

theorem Leaves.imp {r : Run σ α} {I J : σ → Prop} (h : r.Leaves I) (hImp : ∀ s, I s → J s) :
    r.Leaves J :=
  hImp r.2 h

theorem Leaves.andThen {r : Run σ α} {next : α → σ → Run σ β} {I : σ → Prop} (h : r.Leaves I)
    (hNext : ∀ a s, I s → (next a s).Leaves I) : (r.andThen next).Leaves I := by
  obtain ⟨result, s⟩ := r
  cases result with
  | ok a => exact hNext a s h
  | error fault => exact h

theorem leaves_ofOperator {t : Token} {s : σ} {x : Except Cause Value} {I : σ → Prop} (h : I s) :
    (ofOperator t s x).Leaves I := by
  cases x <;> exact h

end Run

/-! ## Assignments -/

namespace Environment

variable {names : List String} {env env' env'' : Environment}

/-- The second environment is the first one after assignments to some of the names. -/
structure Assigned (names : List String) (env env' : Environment) : Prop where
  depth_eq : env'.depth = env.depth
  bindsAt_eq : ∀ i x, env'.bindsAt i x = env.bindsAt i x
  changed : ∀ i x, env'.slot? i x ≠ env.slot? i x →
    x ∈ names ∧ env.home? x = some i ∧ ∃ v, env'.slot? i x = some (.initialized v)

namespace Assigned

protected theorem refl (names : List String) (env : Environment) : Assigned names env env :=
  ⟨rfl, fun _ _ => rfl, fun _ _ h => absurd rfl h⟩

protected theorem trans (h : Assigned names env env') (h' : Assigned names env' env'') :
    Assigned names env env'' := by
  refine ⟨h'.depth_eq.trans h.depth_eq, fun i x => (h'.bindsAt_eq i x).trans (h.bindsAt_eq i x),
    fun i x hChanged => ?_⟩
  -- The slot was changed last by the second part or, if not there, by the first one.
  by_cases hLast : env''.slot? i x = env'.slot? i x
  · rw [hLast] at hChanged ⊢
    exact h.changed i x hChanged
  · obtain ⟨hName, hHome, hValue⟩ := h'.changed i x hLast
    rw [home?_congr fun j => h.bindsAt_eq j x] at hHome
    exact ⟨hName, hHome, hValue⟩

/-- A name that has a value keeps having one. -/
theorem exists_initialized (h : Assigned names env env') {i : Nat} {x : String} {v : Value}
    (hValue : env.slot? i x = some (.initialized v)) :
    ∃ w, env'.slot? i x = some (.initialized w) := by
  by_cases hSame : env'.slot? i x = env.slot? i x
  · exact ⟨v, hSame.trans hValue⟩
  · exact (h.changed i x hSame).2.2

end Assigned

theorem assigned_of_assign? {name : String} {v : Value} (hName : name ∈ names)
    (h : env.assign? name v = some env') : Assigned names env env' := by
  refine ⟨depth_of_assign? h, fun i x => ?_, fun i x hChanged => ?_⟩
  · rw [bindsAt, slot?_of_assign? h]
    split
    · next hSlot =>
        obtain ⟨rfl, hHome⟩ := hSlot
        exact (home?_eq_some_iff.1 hHome).1.symm
    · rfl
  · rw [slot?_of_assign? h] at hChanged ⊢
    split at hChanged
    · next hSlot =>
        obtain ⟨rfl, hHome⟩ := hSlot
        exact ⟨hName, hHome, v, if_pos ⟨rfl, hHome⟩⟩
    · exact absurd rfl hChanged

end Environment

/-! ## Expressions -/

open Environment (Assigned)

/-- The names that an expression assigns. -/
def Expr.targets : Expr → List String
  | .literal _ => []
  | .group inner => inner.targets
  | .unary _ _ operand => operand.targets
  | .binary _ _ left right => left.targets ++ right.targets
  | .conditional condition thenBranch elseBranch =>
    condition.targets ++ thenBranch.targets ++ elseBranch.targets
  | .comma left right => left.targets ++ right.targets
  | .variable _ => []
  | .assign name value => name.lexeme :: value.targets
  | .missing => []

/-- Evaluating an expression only assigns, and only names that the expression assigns. -/
theorem Expr.eval_assigned {names : List String} (e : Expr) (h : e.targets ⊆ names)
    (env : Environment) : (e.eval env).Leaves (Assigned names env) := by
  induction e generalizing env with
  | literal v => exact .refl names env
  | group inner ih => exact ih h env
  | unary op operator operand ih =>
      exact (ih h env).andThen fun v env₁ hFirst => Run.leaves_ofOperator hFirst
  | binary op operator left right ihLeft ihRight =>
      obtain ⟨hLeft, hRight⟩ := List.append_subset.1 h
      refine (ihLeft hLeft env).andThen fun v env₁ hFirst => ?_
      have hSecond := (ihRight hRight env₁).imp fun env₂ hMore => hFirst.trans hMore
      exact hSecond.andThen fun w env₂ hBoth => Run.leaves_ofOperator hBoth
  | conditional condition thenBranch elseBranch ihCondition ihThen ihElse =>
      obtain ⟨hFront, hElse⟩ := List.append_subset.1 h
      obtain ⟨hCondition, hThen⟩ := List.append_subset.1 hFront
      refine (ihCondition hCondition env).andThen fun v env₁ hFirst => ?_
      split
      · exact (ihThen hThen env₁).imp fun env₂ hMore => hFirst.trans hMore
      · exact (ihElse hElse env₁).imp fun env₂ hMore => hFirst.trans hMore
  | comma left right ihLeft ihRight =>
      obtain ⟨hLeft, hRight⟩ := List.append_subset.1 h
      refine (ihLeft hLeft env).andThen fun v env₁ hFirst => ?_
      exact (ihRight hRight env₁).imp fun env₂ hMore => hFirst.trans hMore
  | «variable» name => exact .refl names env
  | assign name value ih =>
      obtain ⟨hName, hValue⟩ := List.cons_subset.1 h
      refine (ih hValue env).andThen fun v env₁ hFirst => ?_
      cases hAssign : env₁.assign? name.lexeme v with
      | some env₂ => exact hFirst.trans (Environment.assigned_of_assign? hName hAssign)
      | none => exact hFirst
  | missing => exact .refl names env

/-- An assignment that succeeds leaves its value in the innermost frame that binds the name. -/
theorem Expr.exists_slot?_eval_assign {name : Token} {value : Expr} {env : Environment} {v : Value}
    (h : ((Expr.assign name value).eval env).1 = .ok v) :
    ∃ i, env.home? name.lexeme = some i ∧
      ((Expr.assign name value).eval env).2.slot? i name.lexeme = some (.initialized v) := by
  have hValue := value.eval_assigned (List.Subset.refl _) env
  rw [Expr.eval] at h ⊢
  rcases hEval : value.eval env with ⟨_ | w, env₁⟩ <;> rw [hEval] at h hValue
  case error => cases h
  case ok =>
      have hHome : env₁.home? name.lexeme = env.home? name.lexeme :=
        Environment.home?_congr fun i => hValue.bindsAt_eq i name.lexeme
      simp only [Run.andThen] at h ⊢
      cases hAssign : env₁.assign? name.lexeme w with
      | none =>
          rw [hAssign] at h
          cases h
      | some env₂ =>
          rw [hAssign] at h
          cases h
          obtain ⟨i, hFound, -⟩ := Environment.frames_of_assign? hAssign
          refine ⟨i, hHome.symm.trans hFound, ?_⟩
          rw [Environment.slot?_of_assign? hAssign, if_pos ⟨rfl, hFound⟩]

namespace Machine

theorem eval_assigned (m : Machine) (e : Expr) :
    (m.eval e).Leaves fun after => Assigned e.targets m.env after.env :=
  e.eval_assigned (List.Subset.refl _) m.env

/--
**Expressions change only what they assign.** However evaluating an expression ends, nothing
is printed, there are as many frames as before, and each of them binds the same names. A
slot that holds something else than before belongs to a name that is assigned somewhere in
the expression, in the innermost frame that binds this name, and it holds a value. So a name
that has a value never loses it. An assignment that succeeds does change that slot: its
value is there.
-/
theorem eval_changes_only_targets (e : Expr) (m : Machine) :
    let after := (m.eval e).2
    after.output = m.output ∧ after.env.depth = m.env.depth ∧
    (∀ i x, after.env.bindsAt i x = m.env.bindsAt i x) ∧
    (∀ i x, after.env.slot? i x ≠ m.env.slot? i x →
      x ∈ e.targets ∧ m.env.home? x = some i ∧ ∃ v, after.env.slot? i x = some (.initialized v)) ∧
    (∀ i x v, m.env.slot? i x = some (.initialized v) →
      ∃ w, after.env.slot? i x = some (.initialized w)) ∧
    ∀ name value v, e = .assign name value → (m.eval e).1 = .ok v →
      ∃ i, m.env.home? name.lexeme = some i ∧
        after.env.slot? i name.lexeme = some (.initialized v) := by
  intro after
  have hAssigned : Assigned e.targets m.env after.env := m.eval_assigned e
  refine ⟨rfl, hAssigned.depth_eq, hAssigned.bindsAt_eq, hAssigned.changed,
    fun i x v => hAssigned.exists_initialized, ?_⟩
  rintro name value v rfl hOk
  exact Expr.exists_slot?_eval_assign hOk

/-- After `x = !(y = x)`, where `x` is bound in two frames, the outer `x` is as it was. -/
example :
    let x : Token := ⟨.identifier, "x", none, 1⟩
    let y : Token := ⟨.identifier, "y", none, 1⟩
    let env : Environment := ⟨⟨[("x", .initialized (.bool true))]⟩,
      [⟨[("y", .uninitialized), ("x", .initialized .nil)]⟩]⟩
    let after := ((Expr.assign x (.unary .not x (.assign y (.variable x)))).eval env).2
    (after.slot? 0 "x", after.slot? 1 "x", after.slot? 1 "y") =
      (some (.initialized (.bool false)), some (.initialized .nil), some (.initialized (.bool true))) := by
  rfl

end Machine

end TinyScript
