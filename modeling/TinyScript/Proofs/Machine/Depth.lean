import TinyScript.Proofs.Machine.Effects

/-!
# Runs leave the frames they found

A block opens a frame and closes it on every exit, so a run leaves the stack of frames as
deep as it found it, whether it finished or stopped at a fault. What is declared is declared
in the current frame, and what a block declares goes with its frame, so the frames around
the current one bind the names that they bound before, and the current frame binds those
that the statement itself declares besides.

`Environment.Extended` says this of two environments. The block is the one case in which the
depth moves, by one frame in and one frame out: the frame that is closed takes along all
names that the body may have added, since all other frames have kept theirs
(`Environment.Extended.pop`).

## Main results

* `Machine.execute_extended`, `Machine.executeAll_extended`: the environment that statements
  leave.
* `Machine.execute_balanced`: depth and names after a statement.
* `Machine.depth_executeAll`, `Machine.depth_runLine`: depth after programs.
-/

namespace TinyScript

/-! ## Environments with more names -/

namespace Environment

variable {added : List String} {env env' env'' : Environment}

/-- The second environment is the first one with some of the added names declared in the
current frame, and with other bindings for names that were bound. -/
structure Extended (added : List String) (env env' : Environment) : Prop where
  depth_eq : env'.depth = env.depth
  outer : ∀ i x, env'.bindsAt (i + 1) x = env.bindsAt (i + 1) x
  kept : ∀ x, env.bindsAt 0 x = true → env'.bindsAt 0 x = true
  fresh : ∀ x, env'.bindsAt 0 x = true → env.bindsAt 0 x = true ∨ x ∈ added

theorem Assigned.extended {names : List String} (h : Assigned names env env') :
    Extended added env env' where
  depth_eq := h.depth_eq
  outer i := h.bindsAt_eq (i + 1)
  kept x hBinds := (h.bindsAt_eq 0 x).trans hBinds
  fresh x hBinds := .inl ((h.bindsAt_eq 0 x).symm.trans hBinds)

theorem extended_define {name : String} (h : name ∈ added) (env : Environment) (b : Binding) :
    Extended added env (env.define name b) where
  depth_eq := rfl
  outer i x := by simp [bindsAt_define]
  kept x hBinds := by simp [bindsAt_define, hBinds]
  fresh x hBinds := by
    rw [bindsAt_define, Bool.or_eq_true, decide_eq_true_eq] at hBinds
    rcases hBinds with ⟨-, rfl⟩ | hBinds
    · exact .inr h
    · exact .inl hBinds

namespace Extended

protected theorem refl (added : List String) (env : Environment) : Extended added env env :=
  (Assigned.refl [] env).extended

protected theorem trans (h : Extended added env env') (h' : Extended added env' env'') :
    Extended added env env'' where
  depth_eq := h'.depth_eq.trans h.depth_eq
  outer i x := (h'.outer i x).trans (h.outer i x)
  kept x hBinds := h'.kept x (h.kept x hBinds)
  fresh x hBinds := (h'.fresh x hBinds).elim (h.fresh x) .inr

/-- A name stays bound in every frame that binds it. -/
theorem bindsAt_mono (h : Extended added env env') {i : Nat} {x : String}
    (hBinds : env.bindsAt i x = true) : env'.bindsAt i x = true := by
  cases i with
  | zero => exact h.kept x hBinds
  | succ i => exact (h.outer i x).trans hBinds

/-- Where no name may be added, every frame binds what it bound. -/
theorem bindsAt_eq (h : Extended [] env env') (i : Nat) (x : String) :
    env'.bindsAt i x = env.bindsAt i x := by
  cases i with
  | zero =>
      refine Bool.eq_iff_iff.2 ⟨fun hBinds => ?_, h.kept x⟩
      exact (h.fresh x hBinds).resolve_right List.not_mem_nil
  | succ i => exact h.outer i x

/-- A frame that is opened and closed again takes along all that was declared in it. -/
theorem pop {inside : List String} (h : Extended inside env.push env') :
    Extended added env env'.pop := by
  have hDepth : env'.depth = env.depth + 1 := h.depth_eq
  have hInner : 1 < env'.depth := by
    have hFrame : 0 < env.depth := Nat.succ_pos _
    omega
  have hBinds : ∀ i x, env'.pop.bindsAt i x = env.bindsAt i x := by
    intro i x
    calc env'.pop.bindsAt i x = env'.bindsAt (i + 1) x := congrArg Option.isSome (slot?_pop hInner i x)
      _ = env.push.bindsAt (i + 1) x := h.outer i x
      _ = env.bindsAt i x := congrArg Option.isSome (slot?_push_succ env i x)
  refine ⟨?_, fun i x => hBinds (i + 1) x, fun x => (hBinds 0 x).trans, fun x hx => .inl ?_⟩
  · have hPop := depth_pop hInner
    omega
  · rw [← hBinds, hx]

end Extended

end Environment

/-! ## Statements -/

open Environment (Extended)

/-- The names that a statement declares itself, outside any block. -/
def Stmt.declared : Stmt → List String
  | .declare d => [d.name.lexeme]
  | .declareAll ds => ds.map (·.name.lexeme)
  | _ => []

namespace Machine

theorem eval_extended {added : List String} (m : Machine) (e : Expr) :
    (m.eval e).Leaves fun m' => Extended added m.env m'.env :=
  (m.eval_assigned e).imp fun _ hAssigned => hAssigned.extended

theorem declare_extended {added : List String} {d : Declaration} (h : d.name.lexeme ∈ added)
    (m : Machine) : (m.declare d).Leaves fun m' => Extended added m.env m'.env := by
  obtain ⟨name, init⟩ := d
  have hDeclared := Environment.extended_define h m.env .uninitialized
  cases init with
  | none => exact hDeclared
  | some e =>
      have hEval := ((m.define name.lexeme .uninitialized).eval_extended e).imp fun m₁ hMore =>
        hDeclared.trans hMore
      exact hEval.andThen fun v m₁ hBoth =>
        hBoth.trans (Environment.extended_define h m₁.env (.initialized v))

theorem declareAll_extended {added : List String} {ds : List Declaration}
    (h : ∀ d ∈ ds, d.name.lexeme ∈ added) (m : Machine) :
    (m.declareAll ds).Leaves fun m' => Extended added m.env m'.env := by
  induction ds generalizing m with
  | nil => exact .refl added m.env
  | cons d ds ih =>
      obtain ⟨hFirst, hRest⟩ := List.forall_mem_cons.1 h
      refine (declare_extended hFirst m).andThen fun _ m₁ hDone => ?_
      exact (ih hRest m₁).imp fun m₂ hMore => hDone.trans hMore

mutual

/-- A statement adds no names but those that it declares, and none outside the current frame. -/
theorem execute_extended : ∀ (s : Stmt) {added : List String} (m : Machine), s.declared ⊆ added →
    (m.execute s).Leaves fun m' => Extended added m.env m'.env
  | .expression e, _, m, _ => (m.eval_extended e).andThen fun _ _ hDone => hDone
  | .print e, _, m, _ => (m.eval_extended e).andThen fun _ _ hDone => hDone
  | .declare _, _, m, h => declare_extended (h List.mem_cons_self) m
  | .declareAll _, _, m, h => declareAll_extended (fun _ hd => h (List.mem_map_of_mem hd)) m
  | .block body, _, m, _ =>
      Extended.pop (executeAll_extended body m.enter fun s hs _ hx =>
        List.mem_flatMap.2 ⟨s, hs, hx⟩)

/-- Statements in order add no names but those that they declare. -/
theorem executeAll_extended : ∀ (ss : List Stmt) {added : List String} (m : Machine),
    (∀ s ∈ ss, s.declared ⊆ added) →
    (m.executeAll ss).Leaves fun m' => Extended added m.env m'.env
  | [], added, m, _ => .refl added m.env
  | s :: ss, _, m, h =>
      (execute_extended s m (h s List.mem_cons_self)).andThen fun _ m₁ hDone =>
        (executeAll_extended ss m₁ fun s hs => h s (List.mem_cons_of_mem _ hs)).imp
          fun _ hMore => hDone.trans hMore

end

/-! ## Names that are declared -/

/-- A declared name is bound, also if its initial value cannot be had. -/
theorem bindsAt_declare (m : Machine) (d : Declaration) :
    (m.declare d).Leaves fun m' => m'.env.bindsAt 0 d.name.lexeme = true := by
  obtain ⟨name, init⟩ := d
  have hDefine : ∀ (m : Machine) (b : Binding),
      (m.define name.lexeme b).env.bindsAt 0 name.lexeme = true := by
    intro m b
    simp [define, Environment.bindsAt_define]
  cases init with
  | none => exact hDefine m .uninitialized
  | some e =>
      have hEval := ((m.define name.lexeme .uninitialized).eval_assigned e).imp fun m₁ hAssigned =>
        (hAssigned.bindsAt_eq 0 name.lexeme).trans (hDefine m .uninitialized)
      exact hEval.andThen fun v m₁ _ => hDefine m₁ (.initialized v)

/-- If all declarations of a row succeed, all their names are bound. -/
theorem bindsAt_declareAll {ds : List Declaration} {m : Machine} (h : (m.declareAll ds).1 = .ok ()) :
    ∀ d ∈ ds, (m.declareAll ds).2.env.bindsAt 0 d.name.lexeme = true := by
  induction ds generalizing m with
  | nil => exact List.forall_mem_nil _
  | cons d ds ih =>
      have hFirst := m.bindsAt_declare d
      rw [declareAll] at h ⊢
      rcases hDeclare : m.declare d with ⟨_ | _, m₁⟩ <;> rw [hDeclare] at h hFirst
      case error => cases h
      case ok =>
        have hKept : Extended (ds.map (·.name.lexeme)) m₁.env (m₁.declareAll ds).2.env :=
          declareAll_extended (fun d hd => List.mem_map.2 ⟨d, hd, rfl⟩) m₁
        exact List.forall_mem_cons.2 ⟨hKept.kept _ hFirst, ih h⟩

theorem bindsAt_execute {s : Stmt} {m : Machine} (h : (m.execute s).1 = .ok ()) :
    ∀ x ∈ s.declared, (m.execute s).2.env.bindsAt 0 x = true := by
  cases s with
  | declare d =>
      rw [execute]
      exact List.forall_mem_singleton.2 (m.bindsAt_declare d)
  | declareAll ds =>
      rw [execute] at h ⊢
      exact List.forall_mem_map.2 (bindsAt_declareAll h)
  | _ => exact List.forall_mem_nil _

/--
**Scopes balance on every exit.** However executing a statement ends, there are as many
frames as before. The frames around the current one bind the same names as before, and the
current frame binds all the names that it bound; a name that it binds besides is declared by
the statement itself, outside any block, and if the statement has finished all such names
are bound. So a block, finished or stopped anywhere inside, leaves the names of every frame
as they were.
-/
theorem execute_balanced (s : Stmt) (m : Machine) :
    let after := (m.execute s).2.env
    after.depth = m.env.depth ∧
    (∀ i x, after.bindsAt (i + 1) x = m.env.bindsAt (i + 1) x) ∧
    (∀ x, m.env.bindsAt 0 x = true → after.bindsAt 0 x = true) ∧
    (∀ x, after.bindsAt 0 x = true → m.env.bindsAt 0 x = true ∨ x ∈ s.declared) ∧
    ((m.execute s).1 = .ok () → ∀ x ∈ s.declared, after.bindsAt 0 x = true) ∧
    ∀ body, s = .block body → ∀ i x, after.bindsAt i x = m.env.bindsAt i x := by
  intro after
  have hExtended : Extended s.declared m.env after := execute_extended s m (List.Subset.refl _)
  refine ⟨hExtended.depth_eq, hExtended.outer, hExtended.kept, hExtended.fresh, bindsAt_execute, ?_⟩
  rintro body rfl
  exact hExtended.bindsAt_eq

/-- A block that declares `x` and an inner block that stops at a fault: both frames are gone. -/
example :
    let x : Token := ⟨.identifier, "x", none, 1⟩
    let s : Stmt := .block [.declare ⟨x, none⟩, .block [.declareAll [⟨x, some (.variable x)⟩]]]
    ((Machine.new .empty).execute s).2.env.frames.map (·.binds "x") = [false] := by
  rfl

/-! ## Programs -/

theorem depth_executeAll (ss : List Stmt) (m : Machine) :
    (m.executeAll ss).Leaves fun m' => m'.env.depth = m.env.depth :=
  (executeAll_extended ss m fun s hs _ hx => List.mem_flatMap.2 ⟨s, hs, hx⟩).depth_eq

/-- A program entered at a prompt leaves as many frames as it found, too. -/
theorem depth_runLine (m : Machine) (program : List Stmt) :
    (m.runLine program).Leaves fun m' => m'.env.depth = m.env.depth := by
  unfold runLine
  split
  · next last _ =>
      refine (m.depth_executeAll _).andThen fun _ m₁ hFirst => ?_
      have hLast := (m₁.eval_assigned last).imp fun m₂ hMore => hMore.depth_eq.trans hFirst
      exact hLast.andThen fun _ _ hDepth => hDepth
  · exact m.depth_executeAll program

end Machine

end TinyScript
