import TinyScript.Proofs.Machine.Depth
import TinyScript.Proofs.Machine.Lines

/-!
# A declared name shields the outer ones

A block that declares a name has a frame of its own for it. From then on every assignment
to the name ends in that frame or in one opened later, so the bindings that the name has in
the frames around the block can no longer be reached.

The induction cannot stay with the frame of the block, since a block inside it opens another
frame, in which the name is not bound. What is carried along is that one of the `n` innermost
frames binds the name (`Environment.Shields`), and what follows from it is that nothing
changes for the name beyond these `n` frames (`Environment.KeptBeyond`). A statement that
does not assign the name needs no shield, so the two cases are one: whoever assigns the name
has to be shielded.

## Main results

* `Environment.Assigned.keptBeyond`: assignments behind a shield.
* `Machine.execute_keptBeyond`, `Machine.executeAll_keptBeyond`: statements behind a shield.
* `Machine.executeAll_declare_keptBeyond`: a declaration is a shield for what follows it.
-/

namespace TinyScript

/-! ## Names that statements assign -/

/-- The names that the initial value of a declaration assigns. -/
def Declaration.targets (d : Declaration) : List String :=
  d.initializer.elim [] Expr.targets

mutual

/-- The names that a statement assigns, also in its blocks. -/
def Stmt.targets : Stmt → List String
  | .expression e => e.targets
  | .print e => e.targets
  | .declare d => d.targets
  | .declareAll ds => ds.flatMap Declaration.targets
  | .block body => Stmt.targetsAll body

/-- The names that a list of statements assigns. -/
def Stmt.targetsAll : List Stmt → List String
  | [] => []
  | s :: rest => s.targets ++ Stmt.targetsAll rest

end

/-! ## Shields -/

namespace Environment

variable {n : Nat} {x : String} {env env' env'' : Environment}

/-- One of the `n` innermost frames binds the name. -/
def Shields (env : Environment) (n : Nat) (x : String) : Prop :=
  ∃ i < n, env.bindsAt i x = true

/-- Beyond the `n` innermost frames the name has the bindings that it had. -/
def KeptBeyond (n : Nat) (x : String) (env env' : Environment) : Prop :=
  ∀ i, n ≤ i → env'.slot? i x = env.slot? i x

theorem shields_push (h : env.Shields n x) : env.push.Shields (n + 1) x := by
  obtain ⟨i, hLt, hBinds⟩ := h
  exact ⟨i + 1, Nat.succ_lt_succ hLt, hBinds⟩

theorem shields_define (hn : 0 < n) (env : Environment) (x : String) (b : Binding) :
    (env.define x b).Shields n x := by
  refine ⟨0, hn, ?_⟩
  rw [bindsAt_define]
  simp

/-- A run takes no name out of a frame, so a shield stays where it is. -/
theorem Extended.shields {added : List String} (h : Extended added env env')
    (hShields : env.Shields n x) : env'.Shields n x := by
  obtain ⟨i, hLt, hBinds⟩ := hShields
  exact ⟨i, hLt, h.bindsAt_mono hBinds⟩

protected theorem KeptBeyond.trans (h : KeptBeyond n x env env') (h' : KeptBeyond n x env' env'') :
    KeptBeyond n x env env'' := by
  intro i hi
  exact (h' i hi).trans (h i hi)

/-- A declaration changes the innermost frame only. -/
theorem keptBeyond_define (hn : 0 < n) (env : Environment) (name x : String) (b : Binding) :
    KeptBeyond n x env (env.define name b) := by
  intro i hi
  have hInner : ¬(i = 0 ∧ x = name) := by omega
  rw [slot?_define, if_neg hInner]

/-- Assignments stop at the shield: a slot that changed is the innermost one of its name. -/
theorem Assigned.keptBeyond {names : List String} (h : Assigned names env env')
    (hShields : x ∈ names → env.Shields n x) : KeptBeyond n x env env' := by
  intro i hi
  by_contra hChanged
  obtain ⟨hName, hHome, -⟩ := h.changed i x hChanged
  obtain ⟨j, hLt, hBinds⟩ := hShields hName
  have hFree : env.bindsAt j x = false := (home?_eq_some_iff.1 hHome).2 j (by omega)
  exact Bool.false_ne_true (hFree.symm.trans hBinds)

/-- Closing the frame that was opened last brings the others one nearer. -/
theorem KeptBeyond.pop (h : KeptBeyond (n + 1) x env.push env') (hDepth : 1 < env'.depth) :
    KeptBeyond n x env env'.pop := by
  intro i hi
  calc env'.pop.slot? i x = env'.slot? (i + 1) x := slot?_pop hDepth i x
    _ = env.push.slot? (i + 1) x := h (i + 1) (Nat.succ_le_succ hi)
    _ = env.slot? i x := slot?_push_succ env i x

end Environment

/-! ## Statements behind a shield -/

namespace Machine

open Environment (Shields KeptBeyond Extended)

variable {n : Nat} {x : String}

theorem eval_keptBeyond {m : Machine} {e : Expr} (h : x ∈ e.targets → m.env.Shields n x) :
    (m.eval e).Leaves fun m' => KeptBeyond n x m.env m'.env :=
  (m.eval_assigned e).imp fun _ hAssigned => hAssigned.keptBeyond h

/-- Two runs one after the other, the second one from a state that the first one leaves. -/
theorem keptBeyond_andThen {α β : Type} {I : Machine → Prop} {m : Machine} {r : Run Machine α}
    {next : α → Machine → Run Machine β} (hKept : r.Leaves fun m' => KeptBeyond n x m.env m'.env)
    (hLeaves : r.Leaves I)
    (hNext : ∀ a m₁, I m₁ → (next a m₁).Leaves fun m' => KeptBeyond n x m₁.env m'.env) :
    (r.andThen next).Leaves fun m' => KeptBeyond n x m.env m'.env := by
  obtain ⟨result, m₁⟩ := r
  cases result with
  | error fault => exact hKept
  | ok a => exact KeptBeyond.trans hKept (hNext a m₁ hLeaves)

/-- The initial value of a name is evaluated when the name is declared already. -/
theorem declare_keptBeyond {m : Machine} {d : Declaration} (hn : 0 < n)
    (h : x ∈ d.targets → d.name.lexeme = x ∨ m.env.Shields n x) :
    (m.declare d).Leaves fun m' => KeptBeyond n x m.env m'.env := by
  obtain ⟨name, init⟩ := d
  have hDeclared := Environment.keptBeyond_define hn m.env name.lexeme x .uninitialized
  cases init with
  | none => exact hDeclared
  | some e =>
      have hShields : x ∈ e.targets → (m.define name.lexeme .uninitialized).env.Shields n x := by
        intro hTarget
        rcases h hTarget with rfl | hBefore
        · exact Environment.shields_define hn m.env _ _
        · have hMem : name.lexeme ∈ [name.lexeme] := List.mem_singleton.2 rfl
          exact (Environment.extended_define hMem m.env .uninitialized).shields hBefore
      have hEval := (eval_keptBeyond hShields).imp fun m₁ hMore => hDeclared.trans hMore
      apply hEval.andThen
      intro v m₁ hBoth
      exact hBoth.trans (Environment.keptBeyond_define hn m₁.env name.lexeme x (.initialized v))

theorem declareAll_keptBeyond {m : Machine} {ds : List Declaration} (hn : 0 < n)
    (h : x ∈ ds.flatMap Declaration.targets → m.env.Shields n x) :
    (m.declareAll ds).Leaves fun m' => KeptBeyond n x m.env m'.env := by
  induction ds generalizing m with
  | nil => exact fun _ _ => rfl
  | cons d ds ih =>
      rw [List.flatMap_cons] at h
      have hFirst : x ∈ d.targets → m.env.Shields n x := fun hTarget =>
        h (List.mem_append_left _ hTarget)
      have hRest : x ∈ ds.flatMap Declaration.targets → m.env.Shields n x := fun hTarget =>
        h (List.mem_append_right _ hTarget)
      apply keptBeyond_andThen (declare_keptBeyond hn fun hTarget => .inr (hFirst hTarget))
        (declare_extended (List.mem_singleton.2 rfl) m)
      intro _ m₁ hExtended
      exact ih fun hTarget => hExtended.shields (hRest hTarget)

/-- What is kept beyond the frame of a block and `n` others is kept beyond those `n`. -/
theorem keptBeyond_block {m : Machine} {body : List Stmt}
    (h : (m.enter.executeAll body).Leaves fun m' => KeptBeyond (n + 1) x m.enter.env m'.env) :
    (m.execute (.block body)).Leaves fun m' => KeptBeyond n x m.env m'.env := by
  have hDepth : (m.enter.executeAll body).2.env.depth = m.env.depth + 1 :=
    m.enter.depth_executeAll body
  have hFrame : 0 < m.env.depth := Nat.succ_pos _
  exact KeptBeyond.pop h (by omega)

mutual

/-- A statement changes nothing for a name beyond the frames that shield it. -/
theorem execute_keptBeyond : ∀ (s : Stmt) {n : Nat} {m : Machine}, 0 < n →
    (x ∈ s.targets → m.env.Shields n x) →
    (m.execute s).Leaves fun m' => KeptBeyond n x m.env m'.env
  | .expression _, _, _, _, h => (eval_keptBeyond h).andThen fun _ _ hDone => hDone
  | .print _, _, _, _, h => (eval_keptBeyond h).andThen fun _ _ hDone => hDone
  | .declare _, _, _, hn, h => declare_keptBeyond hn fun hTarget => .inr (h hTarget)
  | .declareAll _, _, _, hn, h => declareAll_keptBeyond hn h
  | .block body, n, _, _, h =>
      keptBeyond_block (executeAll_keptBeyond body (Nat.succ_pos n) fun hTarget =>
        Environment.shields_push (h hTarget))

/-- Statements in order change nothing for a name beyond the frames that shield it. -/
theorem executeAll_keptBeyond : ∀ (ss : List Stmt) {n : Nat} {m : Machine}, 0 < n →
    (x ∈ Stmt.targetsAll ss → m.env.Shields n x) →
    (m.executeAll ss).Leaves fun m' => KeptBeyond n x m.env m'.env
  | [], _, _, _, _ => fun _ _ => rfl
  | s :: ss, n, m, hn, h => by
      have hFirst : x ∈ s.targets → m.env.Shields n x := fun hTarget =>
        h (List.mem_append_left _ hTarget)
      have hRest : x ∈ Stmt.targetsAll ss → m.env.Shields n x := fun hTarget =>
        h (List.mem_append_right _ hTarget)
      apply keptBeyond_andThen (execute_keptBeyond s hn hFirst)
        (execute_extended s m (List.Subset.refl _))
      intro _ m₁ hExtended
      exact executeAll_keptBeyond ss hn fun hTarget => hExtended.shields (hRest hTarget)

end

/-- A declaration is a shield for its own initial value and for all that follows it. -/
theorem executeAll_declare_keptBeyond (m : Machine) (d : Declaration) (post : List Stmt) :
    (m.executeAll (.declare d :: post)).Leaves fun m' =>
      KeptBeyond 1 d.name.lexeme m.env m'.env := by
  apply keptBeyond_andThen (declare_keptBeyond Nat.one_pos fun _ => .inl rfl) (m.bindsAt_declare d)
  intro _ m₁ hBinds
  have hShields : m₁.env.Shields 1 d.name.lexeme := ⟨0, Nat.one_pos, hBinds⟩
  exact executeAll_keptBeyond post Nat.one_pos fun _ => hShields

/--
**A declared name shields the outer ones.** Let a block declare a name, and let it not assign
the name before. However the block ends, there are as many frames as before, and in each of
them the name has exactly the binding that it had, or still none. The initial value of the
declaration and the statements after it may assign the name, declare it again or hide it in
blocks of their own.
-/
theorem execute_block_shields (x : String) (pre post : List Stmt) (d : Declaration)
    (hName : d.name.lexeme = x) (hPre : x ∉ Stmt.targetsAll pre) (m : Machine) :
    let after := (m.execute (.block (pre ++ [.declare d] ++ post))).2.env
    after.depth = m.env.depth ∧ ∀ i, after.slot? i x = m.env.slot? i x := by
  subst hName
  intro after
  have hBefore : (m.enter.executeAll pre).Leaves fun m' =>
      KeptBeyond 1 d.name.lexeme m.enter.env m'.env :=
    executeAll_keptBeyond pre Nat.one_pos fun hTarget => absurd hTarget hPre
  have hBody : (m.enter.executeAll (pre ++ [.declare d] ++ post)).Leaves fun m' =>
      KeptBeyond 1 d.name.lexeme m.enter.env m'.env := by
    rw [List.append_assoc, executeAll_append]
    apply hBefore.andThen
    intro _ m₁ hKept
    exact (executeAll_declare_keptBeyond m₁ d post).imp fun m₂ hMore => hKept.trans hMore
  constructor
  · exact (execute_extended (.block (pre ++ [.declare d] ++ post)) m (List.Subset.refl _)).depth_eq
  · intro i
    exact keptBeyond_block hBody i (Nat.zero_le i)

/-- `{ y = x; var x = (x = true); { x = nil; var x = x; } }`, where `x` is bound in the
second frame outside the block: the run stops in the inner block, and the outer `x` is as it was. -/
theorem execute_block_shields_failing :
    let x : Token := ⟨.identifier, "x", none, 1⟩
    let y : Token := ⟨.identifier, "y", none, 1⟩
    let pre : List Stmt := [.expression (.assign y (.variable x))]
    let d : Declaration := ⟨x, some (.assign x (.literal (.bool true)))⟩
    let post : List Stmt := [.block [.expression (.assign x (.literal .nil)),
      .declare ⟨x, some (.variable x)⟩]]
    let m : Machine := ⟨⟨⟨[("y", .uninitialized)]⟩, [⟨[("x", .initialized .nil)]⟩]⟩, .empty⟩
    let run := m.execute (.block (pre ++ [.declare d] ++ post))
    d.name.lexeme = "x" ∧ "x" ∉ Stmt.targetsAll pre ∧ run.1 = .error ⟨.uninitialized "x", x⟩ ∧
      run.2.env.depth = m.env.depth ∧ ∀ i, run.2.env.slot? i "x" = m.env.slot? i "x" := by
  intro x y pre d post m run
  have hPre : "x" ∉ Stmt.targetsAll pre := by
    show "x" ∉ ["y"]
    decide
  exact ⟨rfl, hPre, rfl, execute_block_shields "x" pre post d rfl hPre m⟩

end Machine

end TinyScript
