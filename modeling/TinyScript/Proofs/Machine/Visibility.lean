import TinyScript.Machine.Interpret
import TinyScript.Proofs.Scope.Lookup

/-!
# Only visible bindings matter

A program cannot find out how the environment it runs in is built. Two environments that
show the same bindings for the names of the program give the same run: the same result,
the same printed text, and environments that again show the same bindings, however many
frames there are and whatever they hide.

While a program runs it opens frames of its own, and after an inner frame is closed the
outer ones come into view again. So what is carried along is not that the same bindings
are visible. It is that the frames opened since the start agree one by one, and that below
them the two environments that the run started in still show the same (`Alike`). A
declaration may put a binding on top of another in one run where it replaces one in the
other, and an assignment may reach different depths, but only below the opened frames.

What is printed does not depend on what was printed before, so it is stated as a text that
a run adds to whatever output it is given (`Machine.Twins`).

## Main results

* `Environment.Alike.assign?`, `Environment.Alike.define`, `Environment.Alike.push`,
  `Environment.Alike.pop`: what each operation preserves.
* `Expr.eval_agree`: expressions.
* `Machine.execute_twins`, `Machine.executeAll_twins`: statements.
-/

namespace TinyScript

/-! ## Names of a program -/

/-- The names that occur in an expression. -/
def Expr.names : Expr → List String
  | .literal _ => []
  | .group inner => inner.names
  | .unary _ _ operand => operand.names
  | .binary _ _ left right => left.names ++ right.names
  | .conditional condition thenBranch elseBranch =>
    condition.names ++ thenBranch.names ++ elseBranch.names
  | .comma left right => left.names ++ right.names
  | .variable name => [name.lexeme]
  | .assign name value => name.lexeme :: value.names
  | .missing => []

/-- The names that occur in a declaration. -/
def Declaration.names (d : Declaration) : List String :=
  d.name.lexeme :: d.initializer.elim [] Expr.names

mutual

/-- The names that occur in a statement. -/
def Stmt.names : Stmt → List String
  | .expression e => e.names
  | .print e => e.names
  | .declare d => d.names
  | .declareAll ds => ds.flatMap Declaration.names
  | .block body => Stmt.namesAll body

/-- The names that occur in a list of statements. -/
def Stmt.namesAll : List Stmt → List String
  | [] => []
  | s :: rest => s.names ++ Stmt.namesAll rest

end

/-! ## Environments that show the same -/

namespace Environment

/-- `Alike names n env env'`: the `n` innermost frames bind the names alike, one by one, and
the environments below them show the same bindings. -/
inductive Alike (names : List String) : Nat → Environment → Environment → Prop
  | base {env env' : Environment} (h : ∀ x ∈ names, env.get? x = env'.get? x) :
    Alike names 0 env env'
  | frame {n : Nat} {f f' : Frame} {env env' : Environment}
    (h : ∀ x ∈ names, f.get? x = f'.get? x) (below : Alike names n env env') :
    Alike names (n + 1) (onTop f env) (onTop f' env')

namespace Alike

variable {names : List String} {n : Nat} {env env' : Environment}

theorem get?_eq (h : Alike names n env env') : ∀ x ∈ names, env.get? x = env'.get? x := by
  induction h with
  | base h => exact h
  | frame h _ ih =>
      intro x hx
      rw [get?_onTop, get?_onTop, h x hx, ih x hx]

theorem define (h : Alike names n env env') (name : String) (b : Binding) :
    Alike names n (env.define name b) (env'.define name b) := by
  cases h with
  | base h =>
      refine .base fun x hx => ?_
      rw [get?_define, get?_define, h x hx]
  | frame h below =>
      rw [define_onTop, define_onTop]
      refine .frame (fun x hx => ?_) below
      rw [Frame.get?_set, Frame.get?_set, h x hx]

theorem push (h : Alike names n env env') : Alike names (n + 1) env.push env'.push :=
  .frame (fun _ _ => rfl) h

theorem pop (h : Alike names (n + 1) env env') : Alike names n env.pop env'.pop := by
  cases h with
  | frame _ below => exact below

/-- An assignment finds its name in both environments or in neither. -/
theorem assign? (h : Alike names n env env') {name : String} (hName : name ∈ names) (v : Value) :
    (env.assign? name v = none ∧ env'.assign? name v = none) ∨
      ∃ after after', env.assign? name v = some after ∧ env'.assign? name v = some after' ∧
        Alike names n after after' := by
  induction h with
  | @base env env' h =>
      cases hAssign : env.assign? name v with
      | none =>
          have hNone : env'.get? name = none := by
            rw [← h name hName]
            exact assign?_eq_none_iff.1 hAssign
          exact .inl ⟨rfl, assign?_eq_none_iff.2 hNone⟩
      | some after =>
          have hSome : env'.assign? name v ≠ none := by
            rw [Ne, assign?_eq_none_iff, ← h name hName, ← assign?_eq_none_iff (v := v), hAssign]
            exact Option.some_ne_none after
          obtain ⟨after', hAssign'⟩ := Option.ne_none_iff_exists'.1 hSome
          refine .inr ⟨after, after', rfl, hAssign', .base fun x hx => ?_⟩
          rw [get?_of_assign? hAssign, get?_of_assign? hAssign', h x hx]
  | @frame n f f' env env' h below ih =>
      rw [assign?_onTop, assign?_onTop, ← Frame.binds_congr (h name hName)]
      by_cases hBinds : f.binds name = true
      · rw [if_pos hBinds, if_pos hBinds]
        refine .inr ⟨_, _, rfl, rfl, .frame (fun x hx => ?_) below⟩
        rw [Frame.get?_set, Frame.get?_set, h x hx]
      · rw [if_neg hBinds, if_neg hBinds]
        rcases ih with ⟨hNone, hNone'⟩ | ⟨after, after', hSome, hSome', hAfter⟩
        · exact .inl ⟨by rw [hNone]; rfl, by rw [hNone']; rfl⟩
        · exact .inr ⟨_, _, by rw [hSome]; rfl, by rw [hSome']; rfl, .frame h hAfter⟩

/-- Reading a variable gives the same value or the same fault. -/
theorem read_eq (h : Alike names n env env') {name : Token} (hName : name.lexeme ∈ names) :
    env.read name = env'.read name := by
  rw [Environment.read, Environment.read, h.get?_eq _ hName]

end Alike

end Environment

/-! ## Expressions -/

namespace Run

variable {σ α β : Type} {R : σ → σ → Prop}

/-- Two runs that end with the same result, in related states. -/
def Agree (R : σ → σ → Prop) (r r' : Run σ α) : Prop :=
  r.1 = r'.1 ∧ R r.2 r'.2

theorem Agree.andThen {r r' : Run σ α} {next : α → σ → Run σ β} (h : r.Agree R r')
    (hNext : ∀ a s s', R s s' → (next a s).Agree R (next a s')) :
    (r.andThen next).Agree R (r'.andThen next) := by
  obtain ⟨result, s⟩ := r
  obtain ⟨result', s'⟩ := r'
  obtain ⟨hResult, hState⟩ := h
  obtain rfl : result = result' := hResult
  cases result with
  | ok a => exact hNext a s s' hState
  | error fault => exact ⟨rfl, hState⟩

theorem agree_ofOperator {s s' : σ} (h : R s s') (operator : Token) (x : Except Cause Value) :
    (ofOperator operator s x).Agree R (ofOperator operator s' x) := by
  cases x with
  | ok v => exact ⟨rfl, h⟩
  | error cause => exact ⟨rfl, h⟩

end Run

open Environment (Alike)

variable {names : List String} {n : Nat}

/-- Evaluating an expression in environments that show the same gives the same. -/
theorem Expr.eval_agree (e : Expr) (hNames : e.names ⊆ names) {env env' : Environment}
    (h : Alike names n env env') : (e.eval env).Agree (Alike names n) (e.eval env') := by
  induction e generalizing env env' with
  | literal v => exact ⟨rfl, h⟩
  | group inner ih => exact ih hNames h
  | unary op operator operand ih =>
      refine (ih hNames h).andThen fun v s s' hState => ?_
      exact Run.agree_ofOperator hState operator _
  | binary op operator left right ihLeft ihRight =>
      obtain ⟨hLeft, hRight⟩ := List.append_subset.1 hNames
      refine (ihLeft hLeft h).andThen fun v s s' hState => ?_
      refine (ihRight hRight hState).andThen fun w s s' hState => ?_
      exact Run.agree_ofOperator hState operator _
  | conditional condition thenBranch elseBranch ihCondition ihThen ihElse =>
      obtain ⟨hFirst, hElse⟩ := List.append_subset.1 hNames
      obtain ⟨hCondition, hThen⟩ := List.append_subset.1 hFirst
      refine (ihCondition hCondition h).andThen fun v s s' hState => ?_
      by_cases hTrue : v.truthy
      · simp only [hTrue, if_true]
        exact ihThen hThen hState
      · simp only [hTrue]
        exact ihElse hElse hState
  | comma left right ihLeft ihRight =>
      obtain ⟨hLeft, hRight⟩ := List.append_subset.1 hNames
      exact (ihLeft hLeft h).andThen fun _ s s' hState => ihRight hRight hState
  | «variable» name => exact ⟨h.read_eq (hNames (List.mem_singleton.2 rfl)), h⟩
  | assign name value ih =>
      obtain ⟨hName, hValue⟩ := List.cons_subset.1 hNames
      refine (ih hValue h).andThen fun v s s' hState => ?_
      rcases hState.assign? hName v with ⟨hNone, hNone'⟩ | ⟨after, after', hSome, hSome', hAfter⟩
      · rw [hNone, hNone']
        exact ⟨rfl, hState⟩
      · rw [hSome, hSome']
        exact ⟨rfl, hAfter⟩
  | missing => exact ⟨rfl, h⟩

/-! ## Statements -/

namespace Output

/-- The output with a text added. -/
def append (text : String) : Output → Output
  | .buffer old => .buffer (old ++ text)
  | .standard => .standard

theorem append_empty (o : Output) : o.append "" = o := by
  cases o <;> simp [append]

theorem append_append (o : Output) (text more : String) :
    (o.append text).append more = o.append (text ++ more) := by
  cases o <;> simp [append, String.append_assoc]

theorem println_eq (o : Output) (line : String) : o.println line = o.append (line ++ "\n") := by
  cases o <;> simp [append, println, String.append_assoc]

end Output

namespace Machine

variable {α β : Type}

/-- Two runs, each from any output, that end with the same result, add the same text to the
output and leave environments that are alike. -/
def Twins (names : List String) (n : Nat) (r r' : Output → Run Machine α) : Prop :=
  ∃ result text after after', Alike names n after after' ∧
    (∀ o, r o = (result, ⟨after, o.append text⟩)) ∧
    ∀ o, r' o = (result, ⟨after', o.append text⟩)

theorem twins_ok {env env' : Environment} (h : Alike names n env env') (a : α) :
    Twins names n (fun o => (.ok a, ⟨env, o⟩)) fun o => (.ok a, ⟨env', o⟩) :=
  ⟨.ok a, "", env, env', h, fun o => by rw [o.append_empty], fun o => by rw [o.append_empty]⟩

/-- What follows adds its text behind the text of the first run. -/
theorem Twins.andThen {r r' : Output → Run Machine α} {next : α → Machine → Run Machine β}
    (h : Twins names n r r')
    (hNext : ∀ a {env env' : Environment}, Alike names n env env' →
      Twins names n (fun o => next a ⟨env, o⟩) fun o => next a ⟨env', o⟩) :
    Twins names n (fun o => (r o).andThen next) fun o => (r' o).andThen next := by
  obtain ⟨result, text, env, env', hAlike, hRun, hRun'⟩ := h
  cases result with
  | error fault =>
      refine ⟨.error fault, text, env, env', hAlike, fun o => ?_, fun o => ?_⟩
      · show (r o).andThen next = _
        rw [hRun]
        rfl
      · show (r' o).andThen next = _
        rw [hRun']
        rfl
  | ok a =>
      obtain ⟨result, more, after, after', hAfter, hMore, hMore'⟩ := hNext a hAlike
      refine ⟨result, text ++ more, after, after', hAfter, fun o => ?_, fun o => ?_⟩
      · show (r o).andThen next = _
        rw [hRun, ← Output.append_append]
        exact hMore (o.append text)
      · show (r' o).andThen next = _
        rw [hRun', ← Output.append_append]
        exact hMore' (o.append text)

/-- A block leaves its frame in both runs, whether it was finished or not. -/
theorem Twins.leave {r r' : Output → Run Machine α} (h : Twins names (n + 1) r r') :
    Twins names n (fun o => ((r o).1, (r o).2.leave)) fun o => ((r' o).1, (r' o).2.leave) := by
  obtain ⟨result, text, after, after', hAlike, hRun, hRun'⟩ := h
  refine ⟨result, text, after.pop, after'.pop, hAlike.pop, fun o => ?_, fun o => ?_⟩
  · show ((r o).1, (r o).2.leave) = _
    rw [hRun]
    rfl
  · show ((r' o).1, (r' o).2.leave) = _
    rw [hRun']
    rfl

theorem eval_twins (e : Expr) (hNames : e.names ⊆ names) {env env' : Environment}
    (h : Alike names n env env') :
    Twins names n (fun o => Machine.eval ⟨env, o⟩ e) fun o => Machine.eval ⟨env', o⟩ e := by
  obtain ⟨hResult, hAlike⟩ := e.eval_agree hNames h
  refine ⟨(e.eval env).1, "", (e.eval env).2, (e.eval env').2, hAlike, fun o => ?_, fun o => ?_⟩
  · rw [o.append_empty]
    rfl
  · rw [o.append_empty, hResult]
    rfl

theorem declare_twins (d : Declaration) (hNames : d.names ⊆ names) {env env' : Environment}
    (h : Alike names n env env') :
    Twins names n (fun o => Machine.declare ⟨env, o⟩ d) fun o => Machine.declare ⟨env', o⟩ d := by
  have hDeclared := h.define d.name.lexeme .uninitialized
  obtain ⟨name, init⟩ := d
  cases init with
  | none => exact twins_ok hDeclared ()
  | some e =>
      obtain ⟨-, hInit⟩ := List.cons_subset.1 hNames
      refine (eval_twins e hInit hDeclared).andThen fun v env env' hState => ?_
      exact twins_ok (hState.define name.lexeme (.initialized v)) ()

theorem declareAll_twins (ds : List Declaration) (hNames : ds.flatMap Declaration.names ⊆ names)
    {env env' : Environment} (h : Alike names n env env') :
    Twins names n (fun o => Machine.declareAll ⟨env, o⟩ ds)
      fun o => Machine.declareAll ⟨env', o⟩ ds := by
  induction ds generalizing env env' with
  | nil => exact twins_ok h ()
  | cons d rest ih =>
      rw [List.flatMap_cons] at hNames
      obtain ⟨hFirst, hRest⟩ := List.append_subset.1 hNames
      exact (declare_twins d hFirst h).andThen fun _ env env' hState => ih hRest hState

theorem print_twins (v : Value) {env env' : Environment} (h : Alike names n env env') :
    Twins names n (fun o => ((.ok (), Machine.print ⟨env, o⟩ v) : Run Machine Unit))
      fun o => (.ok (), Machine.print ⟨env', o⟩ v) := by
  refine ⟨.ok (), v.display ++ "\n", env, env', h, fun o => ?_, fun o => ?_⟩
  · rw [← o.println_eq]
    rfl
  · rw [← o.println_eq]
    rfl

mutual

/-- A statement runs alike in environments that are alike. -/
theorem execute_twins : ∀ (s : Stmt) {n : Nat} {env env' : Environment}, s.names ⊆ names →
    Alike names n env env' →
    Twins names n (fun o => Machine.execute ⟨env, o⟩ s) fun o => Machine.execute ⟨env', o⟩ s
  | .expression e, _, _, _, hNames, h =>
      (eval_twins e hNames h).andThen fun _ _ _ hState => twins_ok hState ()
  | .print e, _, _, _, hNames, h =>
      (eval_twins e hNames h).andThen fun v _ _ hState => print_twins v hState
  | .declare d, _, _, _, hNames, h => declare_twins d hNames h
  | .declareAll ds, _, _, _, hNames, h => declareAll_twins ds hNames h
  | .block body, _, _, _, hNames, h => (executeAll_twins body hNames h.push).leave

/-- Statements run alike in environments that are alike. -/
theorem executeAll_twins : ∀ (ss : List Stmt) {n : Nat} {env env' : Environment},
    Stmt.namesAll ss ⊆ names → Alike names n env env' →
    Twins names n (fun o => Machine.executeAll ⟨env, o⟩ ss)
      fun o => Machine.executeAll ⟨env', o⟩ ss
  | [], _, _, _, _, h => twins_ok h ()
  | s :: rest, _, _, _, hNames, h =>
      (execute_twins s (List.append_subset.1 hNames).1 h).andThen fun _ _ _ hState =>
        executeAll_twins rest (List.append_subset.1 hNames).2 hState

end

/-! ## Programs -/

/-- A program cannot tell the two environments apart: it ends with the same result, prints
the same text, reports the same, and leaves environments that show the same bindings for
the names of the program. -/
def RunsAlike (p : List Stmt) (env env' : Environment) : Prop :=
  ∃ (result : Except Fault Unit) (text : String) (after after' : Environment),
    (∀ x ∈ Stmt.namesAll p, after.get? x = after'.get? x) ∧
    (∀ o, executeAll ⟨env, o⟩ p = (result, ⟨after, o.append text⟩)) ∧
    (∀ o, executeAll ⟨env', o⟩ p = (result, ⟨after', o.append text⟩)) ∧
    ∀ {σ : Type} [Sink σ] (sink : σ), ∃ verdict sink',
      (∀ o, interpret ⟨env, o⟩ p sink = (verdict, ⟨after, o.append text⟩, sink')) ∧
      ∀ o, interpret ⟨env', o⟩ p sink = (verdict, ⟨after', o.append text⟩, sink')

/-- What is reported depends on the result of a run alone. -/
theorem exists_conclude_eq {σ : Type} [Sink σ] (result : Except Fault Unit) (sink : σ) :
    ∃ verdict sink', ∀ m, conclude (result, m) sink = (verdict, m, sink') := by
  cases result with
  | ok _ => exact ⟨.finished, sink, fun _ => rfl⟩
  | error fault => exact ⟨.failed, Sink.reportRuntime sink fault.report, fun _ => rfl⟩

theorem runsAlike_of_get?_eq {p : List Stmt} {env env' : Environment}
    (h : ∀ x ∈ Stmt.namesAll p, env.get? x = env'.get? x) : RunsAlike p env env' := by
  obtain ⟨result, text, after, after', hAlike, hRun, hRun'⟩ :=
    executeAll_twins p (List.Subset.refl _) (.base h)
  refine ⟨result, text, after, after', hAlike.get?_eq, hRun, hRun', fun sink => ?_⟩
  obtain ⟨verdict, sink', hConclude⟩ := exists_conclude_eq result sink
  refine ⟨verdict, sink', fun o => ?_, fun o => ?_⟩
  · exact (congrArg (conclude · sink) (hRun o)).trans (hConclude _)
  · exact (congrArg (conclude · sink) (hRun' o)).trans (hConclude _)

/--
**Only visible bindings matter.** A program cannot tell apart two environments, of any
depths and frames, that show the same binding for every name of the program. So a stack of
frames can be replaced by the one frame that holds the bindings visible in it.
-/
theorem runsAlike_of_visible (p : List Stmt) :
    (∀ env env' : Environment, (∀ x ∈ Stmt.namesAll p, env.get? x = env'.get? x) →
      RunsAlike p env env') ∧
    ∀ env : Environment, env.collapsed.depth = 1 ∧
      (∀ x, env.collapsed.get? x = env.get? x) ∧ RunsAlike p env env.collapsed := by
  refine ⟨fun env env' => runsAlike_of_get?_eq, fun env => ⟨rfl, env.get?_collapsed, ?_⟩⟩
  exact runsAlike_of_get?_eq fun x _ => (env.get?_collapsed x).symm

/-- `{ var x = y; y = x; } var y = y;`, where `y` is bound below another frame and hides a
binding, or is bound in the only frame: the declaration hides in one run what it replaces
in the other. -/
theorem runsAlike_of_visible_shadowed :
    RunsAlike
      [.block [.declare ⟨⟨.identifier, "x", none, 1⟩, some (.variable ⟨.identifier, "y", none, 1⟩)⟩,
        .expression (.assign ⟨.identifier, "y", none, 1⟩ (.variable ⟨.identifier, "x", none, 1⟩))],
       .declare ⟨⟨.identifier, "y", none, 1⟩, some (.variable ⟨.identifier, "y", none, 1⟩)⟩]
      ⟨⟨[("z", .uninitialized)]⟩,
        [⟨[("y", .initialized (.bool true))]⟩, ⟨[("y", .initialized .nil)]⟩]⟩
      ⟨⟨[("y", .initialized (.bool true))]⟩, []⟩ := by
  refine (runsAlike_of_visible _).1 _ _ fun x hx => ?_
  have hMem : x ∈ ["x", "y", "y", "x", "y", "y"] := hx
  simp only [List.mem_cons, List.not_mem_nil, or_false] at hMem
  rcases hMem with rfl | rfl | rfl | rfl | rfl | rfl <;> rfl

end Machine

end TinyScript
