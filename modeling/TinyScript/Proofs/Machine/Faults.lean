import TinyScript.Machine.Interpret

/-!
# The faults that a program can stop at

Which faults a run may end in can be read off the program: an operator faults at its
own token and only for the causes of that operator, a name faults at its own token and
only for the lack of a binding or of a value. `Expr.Blames` and `Stmt.Blames` say so, and
every run from every state stops at a fault that its program blames.

The proofs follow the run step by step. `Run.StopsAt` is the postcondition that they
carry, about the fault alone; what a run does to the state never matters.

## Main results

* `UnaryOp.mem_causes`, `BinaryOp.mem_causes`: why operators fail.
* `Expr.eval_stopsAt`: faults of expressions.
* `Machine.execute_stopsAt`, `Machine.executeAll_stopsAt`: faults of statements.
* `Machine.interpretLine_eq`, `Machine.runLine_stopsAt`: faults at a prompt.
-/

namespace TinyScript

/-! ## Causes of operators -/

/-- The causes for which a prefix operator fails. -/
def UnaryOp.causes : UnaryOp → List Cause
  | .neg => [.operandNotNumber]
  | .not => []

theorem UnaryOp.mem_causes {op : UnaryOp} {v : Value} {c : Cause} (h : op.apply v = .error c) :
    c ∈ op.causes := by
  cases op with
  | neg =>
      cases v with
      | number x => cases h
      | _ =>
          cases h
          exact List.mem_singleton.2 rfl
  | not => cases h

namespace BinaryOp

/-- The causes for which an operator between two operands fails. -/
def causes : BinaryOp → List Cause
  | .eq => []
  | .notEq => []
  | .greater => [.notComparable]
  | .greaterEq => [.notComparable]
  | .less => [.notComparable]
  | .lessEq => [.notComparable]
  | .add => [.notAddable]
  | .sub => [.operandsNotNumbers]
  | .mul => [.operandsNotNumbers]
  | .div => [.operandsNotNumbers, .divisionByZero]

theorem eq_of_relation_error {holds : Ordering → Bool} {v w : Value} {c : Cause}
    (h : relation holds v w = .error c) : c = .notComparable := by
  unfold relation at h
  cases hOrder : compareValues v w with
  | ok order =>
      rw [hOrder] at h
      cases h
  | error c' =>
      rw [hOrder] at h
      cases h
      unfold compareValues at hOrder
      split at hOrder <;> cases hOrder
      rfl

theorem eq_of_sum_error {v w : Value} {c : Cause} (h : sum v w = .error c) : c = .notAddable := by
  unfold sum at h
  split at h <;> cases h
  rfl

theorem eq_or_of_arithmetic_error {f : Float → Float → Except Cause Float} {v w : Value} {c : Cause}
    (h : arithmetic f v w = .error c) : c = .operandsNotNumbers ∨ ∃ x y, f x y = .error c := by
  unfold arithmetic at h
  split at h
  · next x y =>
      cases hResult : f x y with
      | ok z =>
          rw [hResult] at h
          cases h
      | error c' =>
          rw [hResult] at h
          cases h
          exact .inr ⟨x, y, hResult⟩
  · cases h
    exact .inl rfl

theorem eq_of_quotient_error {x y : Float} {c : Cause} (h : quotient x y = .error c) :
    c = .divisionByZero := by
  unfold quotient at h
  split at h <;> cases h
  rfl

theorem mem_causes {op : BinaryOp} {v w : Value} {c : Cause} (h : op.apply v w = .error c) :
    c ∈ op.causes := by
  cases op with
  | eq => cases h
  | notEq => cases h
  | greater => exact List.mem_singleton.2 (eq_of_relation_error h)
  | greaterEq => exact List.mem_singleton.2 (eq_of_relation_error h)
  | less => exact List.mem_singleton.2 (eq_of_relation_error h)
  | lessEq => exact List.mem_singleton.2 (eq_of_relation_error h)
  | add => exact List.mem_singleton.2 (eq_of_sum_error h)
  | sub =>
      rcases eq_or_of_arithmetic_error h with rfl | ⟨x, y, hOk⟩
      · exact List.mem_singleton.2 rfl
      · cases hOk
  | mul =>
      rcases eq_or_of_arithmetic_error h with rfl | ⟨x, y, hOk⟩
      · exact List.mem_singleton.2 rfl
      · cases hOk
  | div =>
      rcases eq_or_of_arithmetic_error h with rfl | ⟨x, y, hZero⟩
      · exact List.mem_cons_self
      · rw [eq_of_quotient_error hZero]
        exact List.mem_cons_of_mem _ (List.mem_singleton.2 rfl)

end BinaryOp

/-! ## Postconditions on faults -/

namespace Run

variable {σ α β : Type} {P P' : Fault → Prop}

/-- If the run stops, then at a fault with the property. -/
def StopsAt (r : Run σ α) (P : Fault → Prop) : Prop :=
  ∀ f, r.1 = .error f → P f

theorem stopsAt_ok (a : α) (s : σ) : StopsAt ((.ok a, s) : Run σ α) P := by
  intro f hf
  cases hf

theorem StopsAt.imp {r : Run σ α} (h : r.StopsAt P) (hImp : ∀ f, P f → P' f) : r.StopsAt P' :=
  fun f hf => hImp f (h f hf)

theorem StopsAt.andThen {r : Run σ α} {next : α → σ → Run σ β} (h : r.StopsAt P)
    (hNext : ∀ a s, (next a s).StopsAt P) : (r.andThen next).StopsAt P := by
  obtain ⟨result, s⟩ := r
  cases result with
  | ok a => exact hNext a s
  | error fault =>
      intro f hf
      cases hf
      exact h fault rfl

/-- The result of an operator stops at the token of the operator. -/
theorem stopsAt_ofOperator {t : Token} {s : σ} {x : Except Cause Value}
    (h : ∀ c, x = .error c → P ⟨c, t⟩) : (ofOperator t s x).StopsAt P := by
  cases x with
  | ok v => exact stopsAt_ok v s
  | error c =>
      intro f hf
      cases hf
      exact h c rfl

end Run

/-! ## Expressions -/

/-- The faults at which evaluating an expression can stop. -/
def Expr.Blames : Expr → Fault → Prop
  | .literal _, _ => False
  | .group inner, f => inner.Blames f
  | .unary op operator operand, f =>
    operand.Blames f ∨ f.cause ∈ op.causes ∧ f.token = operator
  | .binary op operator left right, f =>
    left.Blames f ∨ right.Blames f ∨ f.cause ∈ op.causes ∧ f.token = operator
  | .conditional condition thenBranch elseBranch, f =>
    condition.Blames f ∨ thenBranch.Blames f ∨ elseBranch.Blames f
  | .comma left right, f => left.Blames f ∨ right.Blames f
  | .variable name, f => f = ⟨.uninitialized name.lexeme, name⟩ ∨ f = ⟨.undefined name.lexeme, name⟩
  | .assign name value, f => value.Blames f ∨ f = ⟨.undefined name.lexeme, name⟩
  | .missing, f => f = ⟨.malformed, Token.endOfFile 0⟩

/-- Evaluating an expression stops at a fault that the expression blames. -/
theorem Expr.eval_stopsAt (e : Expr) (env : Environment) : (e.eval env).StopsAt e.Blames := by
  induction e generalizing env with
  | literal v => exact Run.stopsAt_ok v env
  | group inner ih => exact ih env
  | unary op operator operand ih =>
      refine ((ih env).imp fun f hf => .inl hf).andThen fun v env => ?_
      exact Run.stopsAt_ofOperator fun c hc => .inr ⟨UnaryOp.mem_causes hc, rfl⟩
  | binary op operator left right ihLeft ihRight =>
      refine ((ihLeft env).imp fun f hf => .inl hf).andThen fun v env => ?_
      refine ((ihRight env).imp fun f hf => .inr (.inl hf)).andThen fun w env => ?_
      exact Run.stopsAt_ofOperator fun c hc => .inr (.inr ⟨BinaryOp.mem_causes hc, rfl⟩)
  | conditional condition thenBranch elseBranch ihCondition ihThen ihElse =>
      refine ((ihCondition env).imp fun f hf => .inl hf).andThen fun v env => ?_
      by_cases hTrue : v.truthy
      · simp only [hTrue, if_true]
        exact (ihThen env).imp fun f hf => .inr (.inl hf)
      · simp only [hTrue]
        exact (ihElse env).imp fun f hf => .inr (.inr hf)
  | comma left right ihLeft ihRight =>
      refine ((ihLeft env).imp fun f hf => .inl hf).andThen fun v env => ?_
      exact (ihRight env).imp fun f hf => .inr hf
  | «variable» name =>
      intro f hf
      simp only [Expr.eval, Environment.read] at hf
      split at hf <;> cases hf
      · exact .inl rfl
      · exact .inr rfl
  | assign name value ih =>
      refine ((ih env).imp fun f hf => .inl hf).andThen fun v env => ?_
      cases hAssign : env.assign? name.lexeme v with
      | some env' => exact Run.stopsAt_ok v env'
      | none =>
          intro f hf
          cases hf
          exact .inr rfl
  | missing =>
      intro f hf
      cases hf
      rfl

/-! ## Statements -/

/-- The faults at which declaring a name can stop. -/
def Declaration.Blames (d : Declaration) (f : Fault) : Prop :=
  ∃ e ∈ d.initializer, e.Blames f

mutual

/-- The faults at which executing a statement can stop. -/
def Stmt.Blames : Stmt → Fault → Prop
  | .expression e, f => e.Blames f
  | .print e, f => e.Blames f
  | .declare d, f => d.Blames f
  | .declareAll ds, f => ∃ d ∈ ds, d.Blames f
  | .block body, f => Stmt.BlamesAny body f

/-- The faults at which executing statements in order can stop. -/
def Stmt.BlamesAny : List Stmt → Fault → Prop
  | [], _ => False
  | s :: rest, f => s.Blames f ∨ Stmt.BlamesAny rest f

end

theorem Stmt.blamesAny_iff {ss : List Stmt} {f : Fault} :
    Stmt.BlamesAny ss f ↔ ∃ s ∈ ss, s.Blames f := by
  induction ss with
  | nil => simp [Stmt.BlamesAny]
  | cons s ss ih => simp [Stmt.BlamesAny, ih]

namespace Machine

theorem eval_stopsAt (m : Machine) (e : Expr) : (m.eval e).StopsAt e.Blames :=
  fun f hf => Expr.eval_stopsAt e m.env f hf

theorem declare_stopsAt (m : Machine) (d : Declaration) : (m.declare d).StopsAt d.Blames := by
  obtain ⟨name, init⟩ := d
  cases init with
  | none => exact Run.stopsAt_ok () _
  | some e =>
      refine ((eval_stopsAt _ e).imp fun f hf => ⟨e, rfl, hf⟩).andThen fun v m => ?_
      exact Run.stopsAt_ok () _

theorem declareAll_stopsAt (m : Machine) (ds : List Declaration) :
    (m.declareAll ds).StopsAt fun f => ∃ d ∈ ds, d.Blames f := by
  induction ds generalizing m with
  | nil => exact Run.stopsAt_ok () m
  | cons d ds ih =>
      refine ((declare_stopsAt m d).imp fun f hf => ⟨d, by simp, hf⟩).andThen fun _ m => ?_
      refine (ih m).imp fun f hf => ?_
      obtain ⟨d', hMem, hBlames⟩ := hf
      exact ⟨d', by simp [hMem], hBlames⟩

mutual

/-- Executing a statement stops at a fault that the statement blames. -/
theorem execute_stopsAt : ∀ (s : Stmt) (m : Machine), (m.execute s).StopsAt s.Blames
  | .expression e, m => (eval_stopsAt m e).andThen fun _ m => Run.stopsAt_ok () m
  | .print e, m => (eval_stopsAt m e).andThen fun v m => Run.stopsAt_ok () (m.print v)
  | .declare d, m => declare_stopsAt m d
  | .declareAll ds, m => declareAll_stopsAt m ds
  | .block body, m => fun f hf => executeAll_stopsAt body m.enter f hf

/-- Executing statements in order stops at a fault that one of them blames. -/
theorem executeAll_stopsAt : ∀ (ss : List Stmt) (m : Machine),
    (m.executeAll ss).StopsAt (Stmt.BlamesAny ss)
  | [], m => Run.stopsAt_ok () m
  | s :: ss, m => ((execute_stopsAt s m).imp fun _ hf => .inl hf).andThen fun _ m =>
      (executeAll_stopsAt ss m).imp fun _ hf => .inr hf

end

/-! ## At a prompt -/

/-- The run of a program entered at a prompt: a last expression is printed. -/
def runLine (m : Machine) (program : List Stmt) : Run Machine Unit :=
  match program.getLast? with
  | some (.expression last) =>
    (m.executeAll program.dropLast).andThen fun _ m =>
      (m.eval last).andThen fun v m => (.ok (), m.print v)
  | _ => m.executeAll program

/-- What is reported at a prompt is how that run ended. -/
theorem interpretLine_eq {σ : Type} [Sink σ] (m : Machine) (program : List Stmt) (sink : σ) :
    m.interpretLine program sink = conclude (m.runLine program) sink := by
  unfold interpretLine runLine interpret
  rcases hLast : program.getLast? with _ | (_ | _ | _ | _ | _)
  case some.expression =>
    obtain ⟨result, m'⟩ := m.executeAll program.dropLast
    cases result <;> rfl
  all_goals rfl

/-- A run at a prompt stops at a fault that one of the statements blames. -/
theorem runLine_stopsAt (m : Machine) (program : List Stmt) :
    (m.runLine program).StopsAt (Stmt.BlamesAny program) := by
  unfold runLine
  split
  · next last hLast =>
      have hInit : ∀ f, Stmt.BlamesAny program.dropLast f → Stmt.BlamesAny program f := by
        intro f hf
        obtain ⟨s, hMem, hBlames⟩ := Stmt.blamesAny_iff.1 hf
        exact Stmt.blamesAny_iff.2 ⟨s, List.dropLast_subset _ hMem, hBlames⟩
      have hFinal : ∀ f, last.Blames f → Stmt.BlamesAny program f := by
        intro f hf
        exact Stmt.blamesAny_iff.2 ⟨_, List.mem_of_getLast? hLast, hf⟩
      refine ((executeAll_stopsAt _ m).imp hInit).andThen fun _ m => ?_
      exact ((eval_stopsAt m last).imp hFinal).andThen fun v m => Run.stopsAt_ok () _
  · exact executeAll_stopsAt program m

end Machine

end TinyScript
