import TinyScript.Proofs.Machine.Blame
import TinyScript.Proofs.Machine.Depth
import TinyScript.Proofs.Machine.Visibility

/-!
# Scoped programs meet no undefined variable

Whether every name of a program has a declaration in force where it stands can be checked
before the program is run. The check reads the program in order and carries the names that
are known: a declaration makes its name known from its own initial value on, and what a
block makes known is forgotten at its end. A run of a program that passes the check, in an
environment that binds the names known at the start, may stop for many reasons, but not for
a variable that is undefined.

The frames of the run and the names of the check go together as long as all known names are
bound in some frame (`Environment.Covers`). A run takes no name out of a frame, so this
stays true; a statement that has finished has bound what it declares; and a block forgets
names in the check where it closes their frame in the run.

## Main results

* `Environment.Covers.of_extended`, `Machine.covers_execute`: known names are bound.
* `Expr.eval_inScope`, `Machine.execute_inScope`, `Machine.executeAll_inScope`: why scoped
  programs stop.
-/

namespace TinyScript

/-! ## The check -/

/-- Some names besides those that are known. -/
def knowing (known : String → Bool) (names : List String) (x : String) : Bool :=
  known x || names.contains x

/-- Whether all names of an expression are known. -/
def Expr.inScope (known : String → Bool) (e : Expr) : Bool :=
  e.names.all known

namespace Declaration

/-- Whether all names of an initial value are known, once the declared name is. -/
def inScope (known : String → Bool) (d : Declaration) : Bool :=
  d.initializer.all (Expr.inScope (knowing known [d.name.lexeme]))

/-- Whether declarations are scoped, each of them with the names declared before it. -/
def allInScope : (String → Bool) → List Declaration → Bool
  | _, [] => true
  | known, d :: ds => d.inScope known && allInScope (knowing known [d.name.lexeme]) ds

end Declaration

mutual

/-- Whether all names of a statement are known where they stand. -/
def Stmt.inScope : (String → Bool) → Stmt → Bool
  | known, .expression e => e.inScope known
  | known, .print e => e.inScope known
  | known, .declare d => d.inScope known
  | known, .declareAll ds => Declaration.allInScope known ds
  | known, .block body => Stmt.allInScope known body

/-- Whether statements are scoped, each of them with the names declared before it. -/
def Stmt.allInScope : (String → Bool) → List Stmt → Bool
  | _, [] => true
  | known, s :: rest => s.inScope known && Stmt.allInScope (knowing known s.declared) rest

end

/-! ## Known names are bound -/

namespace Environment

variable {known : String → Bool} {env env' : Environment}

/-- Every known name is bound. -/
def Covers (known : String → Bool) (env : Environment) : Prop :=
  ∀ x, known x = true → (env.get? x).isSome = true

theorem isSome_get?_iff {x : String} :
    (env.get? x).isSome = true ↔ ∃ i, env.bindsAt i x = true := by
  rw [get?, List.findSome?_isSome_iff]
  constructor
  · rintro ⟨f, hf, hBinds⟩
    obtain ⟨i, hLt, rfl⟩ := List.getElem_of_mem hf
    exact ⟨i, (bindsAt_of_lt hLt x).trans hBinds⟩
  · rintro ⟨i, hBinds⟩
    have hLt := lt_of_bindsAt hBinds
    exact ⟨env.frames[i], List.getElem_mem hLt, (bindsAt_of_lt hLt x).symm.trans hBinds⟩

namespace Covers

theorem push (h : env.Covers known) : env.push.Covers known := by
  intro x hx
  rw [get?_push]
  exact h x hx

/-- A run takes no name out of a frame. -/
theorem of_extended {added : List String} (h : env.Covers known)
    (hExtended : Extended added env env') : env'.Covers known := by
  intro x hx
  obtain ⟨i, hBinds⟩ := isSome_get?_iff.1 (h x hx)
  exact isSome_get?_iff.2 ⟨i, hExtended.bindsAt_mono hBinds⟩

theorem knowing {names : List String} (h : env.Covers known)
    (hNames : ∀ x ∈ names, env.bindsAt 0 x = true) : env.Covers (knowing known names) := by
  intro x hx
  rw [TinyScript.knowing, Bool.or_eq_true, List.contains_iff_mem] at hx
  rcases hx with hKnown | hName
  · exact h x hKnown
  · exact isSome_get?_iff.2 ⟨0, hNames x hName⟩

end Covers

end Environment

/-! ## Runs that finish -/

namespace Run

variable {σ α β : Type} {P : Fault → Prop} {I : σ → Prop}

/-- If the run finishes, then in a state with the property. -/
def Finishes (r : Run σ α) (I : σ → Prop) : Prop :=
  ∀ a, r.1 = .ok a → I r.2

theorem Leaves.finishes {r : Run σ α} (h : r.Leaves I) : r.Finishes I :=
  fun _ _ => h

/-- What follows a run starts where the run has finished. -/
theorem StopsAt.andThen_of_finishes {r : Run σ α} {next : α → σ → Run σ β} (h : r.StopsAt P)
    (hFinishes : r.Finishes I) (hNext : ∀ a s, I s → (next a s).StopsAt P) :
    (r.andThen next).StopsAt P := by
  obtain ⟨result, s⟩ := r
  cases result with
  | ok a => exact hNext a s (hFinishes a rfl)
  | error fault =>
      intro f hf
      cases hf
      exact h fault rfl

end Run

/-! ## Why scoped programs stop -/

/-- The fault is another one than that a variable is undefined. -/
def Fault.InScope (f : Fault) : Prop :=
  ∀ x, f.cause ≠ .undefined x

theorem UnaryOp.undefined_notMem_causes (op : UnaryOp) (x : String) : .undefined x ∉ op.causes := by
  cases op <;> simp [causes]

theorem BinaryOp.undefined_notMem_causes (op : BinaryOp) (x : String) :
    .undefined x ∉ op.causes := by
  cases op <;> simp [causes]

open Environment (Covers Extended)

variable {known : String → Bool}

/-- Evaluating an expression unbinds no name. -/
theorem Expr.eval_covers (e : Expr) {env : Environment} (h : env.Covers known) :
    (e.eval env).Leaves (Covers known) := by
  apply (e.eval_assigned (List.Subset.refl _) env).imp
  intro env₁ hAssigned
  have hExtended : Extended [] env env₁ := hAssigned.extended
  exact h.of_extended hExtended

theorem Environment.read_inScope {env : Environment} (name : Token) (h : env.Covers known)
    (hName : known name.lexeme = true) : ∀ f, env.read name = .error f → f.InScope := by
  intro f hf x hCause
  have hBound := h name.lexeme hName
  unfold Environment.read at hf
  split at hf
  · cases hf
  · cases hf
    cases hCause
  · next hNone =>
      rw [hNone] at hBound
      cases hBound

/-- An expression with known names only does not stop at an undefined one. -/
theorem Expr.eval_inScope (e : Expr) (hIn : e.inScope known = true) {env : Environment}
    (h : env.Covers known) : (e.eval env).StopsAt Fault.InScope := by
  induction e generalizing env with
  | literal v => exact Run.stopsAt_ok v env
  | group inner ih => exact ih hIn h
  | unary op operator operand ih =>
      apply (ih hIn h).andThen
      intro v env₁
      apply Run.stopsAt_ofOperator
      rintro c hc x rfl
      exact op.undefined_notMem_causes x (UnaryOp.mem_causes hc)
  | binary op operator left right ihLeft ihRight =>
      rw [Expr.inScope, Expr.names, List.all_append, Bool.and_eq_true] at hIn
      apply (ihLeft hIn.1 h).andThen_of_finishes (left.eval_covers h).finishes
      intro v env₁ h₁
      apply (ihRight hIn.2 h₁).andThen
      intro w env₂
      apply Run.stopsAt_ofOperator
      rintro c hc x rfl
      exact op.undefined_notMem_causes x (BinaryOp.mem_causes hc)
  | conditional condition thenBranch elseBranch ihCondition ihThen ihElse =>
      rw [Expr.inScope, Expr.names, List.all_append, List.all_append, Bool.and_eq_true,
        Bool.and_eq_true] at hIn
      apply (ihCondition hIn.1.1 h).andThen_of_finishes (condition.eval_covers h).finishes
      intro v env₁ h₁
      split
      · exact ihThen hIn.1.2 h₁
      · exact ihElse hIn.2 h₁
  | comma left right ihLeft ihRight =>
      rw [Expr.inScope, Expr.names, List.all_append, Bool.and_eq_true] at hIn
      apply (ihLeft hIn.1 h).andThen_of_finishes (left.eval_covers h).finishes
      intro v env₁ h₁
      exact ihRight hIn.2 h₁
  | «variable» name =>
      rw [Expr.inScope, Expr.names, List.all_cons, Bool.and_eq_true] at hIn
      exact env.read_inScope name h hIn.1
  | assign name value ih =>
      rw [Expr.inScope, Expr.names, List.all_cons, Bool.and_eq_true] at hIn
      apply (ih hIn.2 h).andThen_of_finishes (value.eval_covers h).finishes
      intro v env₁ h₁
      cases hAssign : env₁.assign? name.lexeme v with
      | some env₂ => exact Run.stopsAt_ok v env₂
      | none =>
          have hBound := h₁ name.lexeme hIn.1
          rw [Environment.assign?_eq_none_iff.1 hAssign] at hBound
          cases hBound
  | missing =>
      intro f hf
      cases hf
      intro x hCause
      cases hCause

namespace Machine

/-- A statement that has finished has bound the names that it declares. -/
theorem covers_execute {m : Machine} (s : Stmt) (h : m.env.Covers known) :
    (m.execute s).Finishes fun m' => m'.env.Covers (knowing known s.declared) := by
  intro _ hOk
  have hExtended := execute_extended s m (List.Subset.refl s.declared)
  exact (h.of_extended hExtended).knowing (bindsAt_execute hOk)

theorem eval_inScope {m : Machine} (e : Expr) (hIn : e.inScope known = true)
    (h : m.env.Covers known) : (m.eval e).StopsAt Fault.InScope :=
  fun f hf => e.eval_inScope hIn h f hf

theorem declare_inScope {m : Machine} (d : Declaration) (hIn : d.inScope known = true)
    (h : m.env.Covers known) : (m.declare d).StopsAt Fault.InScope := by
  obtain ⟨name, init⟩ := d
  cases init with
  | none => exact Run.stopsAt_ok () _
  | some e =>
      have hDeclared := covers_execute (.declare ⟨name, none⟩) h () rfl
      apply (eval_inScope e hIn hDeclared).andThen
      intro v m₁
      exact Run.stopsAt_ok () _

theorem declareAll_inScope {m : Machine} (ds : List Declaration)
    (hIn : Declaration.allInScope known ds = true) (h : m.env.Covers known) :
    (m.declareAll ds).StopsAt Fault.InScope := by
  induction ds generalizing known m with
  | nil => exact Run.stopsAt_ok () m
  | cons d ds ih =>
      rw [Declaration.allInScope, Bool.and_eq_true] at hIn
      apply (declare_inScope d hIn.1 h).andThen_of_finishes (covers_execute (.declare d) h)
      intro _ m₁ h₁
      exact ih hIn.2 h₁

mutual

/-- A scoped statement does not stop at an undefined variable. -/
theorem execute_inScope : ∀ (s : Stmt) {known : String → Bool} {m : Machine},
    s.inScope known = true → m.env.Covers known → (m.execute s).StopsAt Fault.InScope
  | .expression e, _, _, hIn, h => (eval_inScope e hIn h).andThen fun _ m => Run.stopsAt_ok () m
  | .print e, _, _, hIn, h =>
      (eval_inScope e hIn h).andThen fun v m => Run.stopsAt_ok () (m.print v)
  | .declare d, _, _, hIn, h => declare_inScope d hIn h
  | .declareAll ds, _, _, hIn, h => declareAll_inScope ds hIn h
  | .block body, _, m, hIn, h =>
      fun f hf => executeAll_inScope body (m := m.enter) hIn h.push f hf

/-- Scoped statements in order do not stop at an undefined variable. -/
theorem executeAll_inScope : ∀ (ss : List Stmt) {known : String → Bool} {m : Machine},
    Stmt.allInScope known ss = true → m.env.Covers known →
    (m.executeAll ss).StopsAt Fault.InScope
  | [], _, m, _, _ => Run.stopsAt_ok () m
  | s :: ss, known, m, hIn, h => by
      rw [Stmt.allInScope, Bool.and_eq_true] at hIn
      apply (execute_inScope s hIn.1 h).andThen_of_finishes (covers_execute s h)
      intro _ m₁ h₁
      exact executeAll_inScope ss hIn.2 h₁

end

/--
**Scoped programs meet no undefined variable.** Let every name of a program be bound at the
start or declared where it stands. Then a run of the program finishes and reports nothing, or
it stops at a fault and reports it, and the fault is not that a variable is undefined, nor is
this what the report says.
-/
theorem interpret_of_allInScope {σ : Type} [Sink σ] (m : Machine) (program : List Stmt) (sink : σ)
    (h : Stmt.allInScope (fun x => (m.env.get? x).isSome) program = true) :
    (∃ m', m.interpret program sink = (.finished, m', sink)) ∨
    ∃ m' f, m.executeAll program = (.error f, m') ∧
      m.interpret program sink = (.failed, m', Sink.reportRuntime sink f.report) ∧
      ∀ x, f.cause ≠ .undefined x ∧ f.report.message ≠ (Cause.undefined x).message := by
  have hStops := executeAll_inScope program h fun _ hBound => hBound
  unfold interpret
  rcases hRun : m.executeAll program with ⟨f | _, m'⟩
  case ok => exact .inl ⟨m', rfl⟩
  case error =>
    have hFault : f.InScope := hStops f (by rw [hRun])
    refine .inr ⟨m', f, rfl, rfl, fun x => ⟨hFault x, fun hMessage => ?_⟩⟩
    exact hFault x (Cause.message_inj hMessage)

/-- `var a = b; { var c = a, d = c; b = d; { var b = b; } }`, where only `b` is bound at the
start: all names are in scope, and the run stops since the innermost `b` has no value yet. -/
theorem interpret_of_allInScope_uninitialized :
    let a : Token := ⟨.identifier, "a", none, 1⟩
    let b : Token := ⟨.identifier, "b", none, 1⟩
    let c : Token := ⟨.identifier, "c", none, 1⟩
    let d : Token := ⟨.identifier, "d", none, 1⟩
    let program : List Stmt := [.declare ⟨a, some (.variable b)⟩,
      .block [.declareAll [⟨c, some (.variable a)⟩, ⟨d, some (.variable c)⟩],
        .expression (.assign b (.variable d)), .block [.declare ⟨b, some (.variable b)⟩]]]
    let m : Machine := ⟨⟨.empty, [⟨[("b", .initialized .nil)]⟩]⟩, .empty⟩
    let sink : Queue := {}
    Stmt.allInScope (fun x => (m.env.get? x).isSome) program = true ∧
    (m.executeAll program).1 = .error ⟨.uninitialized "b", b⟩ ∧
    ((∃ m', m.interpret program sink = (.finished, m', sink)) ∨
      ∃ m' f, m.executeAll program = (.error f, m') ∧
        m.interpret program sink = (.failed, m', Sink.reportRuntime sink f.report) ∧
        ∀ x, f.cause ≠ .undefined x ∧ f.report.message ≠ (Cause.undefined x).message) := by
  intro a b c d program m sink
  have hIn : Stmt.allInScope (fun x => (m.env.get? x).isSome) program = true := by decide
  exact ⟨hIn, rfl, interpret_of_allInScope m program sink hIn⟩

/-- A name is out of scope where nothing declares it, and after the block of its declaration;
it is in scope in its own initial value. -/
example :
    let b : Token := ⟨.identifier, "b", none, 1⟩
    (Stmt.allInScope (fun _ => false) [.expression (.variable b)],
      Stmt.allInScope (fun _ => false) [.block [.declare ⟨b, none⟩], .print (.variable b)],
      Stmt.allInScope (fun _ => false) [.declare ⟨b, some (.variable b)⟩, .print (.variable b)]) =
      (false, false, true) := by
  decide

end Machine

end TinyScript
