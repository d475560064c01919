import Mathlib.Data.Option.Basic
import Mathlib.Logic.Function.Basic
import TinyScript.Proofs.Scope.Slots

/-!
# Environments are stacks of maps

An environment is used through a few operations only: names are bound, looked up and
assigned, and scopes are opened and closed. What it is made of cannot be seen otherwise. So
two ways to hold an environment are the same if they give the same answers, whatever
sequence of operations they are asked for (`Scoping.answers`), and this follows from a
relation between their states that every operation keeps (`Scoping.Simulation`).

The plainest way is a stack of maps that is never empty (`MapStack`). Frames hold their names
in lists, and the current one apart from the others; both are details of that kind.

## Main results

* `Scoping.Simulation.perform`, `Scoping.Simulation.answers_eq`: one operation, and all of them.
* `Environment.simulation`: an environment is a stack of maps.
-/

namespace TinyScript

/-- A way to hold the names of nested scopes. -/
class Scoping (σ : Type) where
  /-- One scope without names. -/
  new : σ
  /-- Binds a name in the current scope. -/
  define : σ → String → Binding → σ
  /-- The binding of a name in the nearest scope that has one. -/
  get? : σ → String → Option Binding
  /-- Gives a name a value in the nearest scope that binds it. -/
  assign? : σ → String → Value → Option σ
  /-- Opens a scope. -/
  push : σ → σ
  /-- Closes the current scope, unless it is the last one. -/
  pop : σ → σ
  /-- Number of scopes. -/
  depth : σ → Nat

namespace Scoping

/-- What can be asked of an environment. -/
inductive Operation where
  | define (name : String) (b : Binding)
  | get (name : String)
  | assign (name : String) (v : Value)
  | push
  | pop

/-- What an operation gives back. -/
inductive Answer where
  | done
  | binding (b : Option Binding)
  | assigned (found : Bool)

variable {σ τ : Type}

/-- An assignment that finds no name leaves everything as it is. -/
def settle (s : σ) : Option σ → Answer × σ
  | some s' => (.assigned true, s')
  | none => (.assigned false, s)

theorem related_settle {R : σ → τ → Prop} {s : σ} {t : τ} {s' : Option σ} {t' : Option τ}
    (hR : R s t) (h : Option.Rel R s' t') :
    (settle s s').1 = (settle t t').1 ∧ R (settle s s').2 (settle t t').2 := by
  cases h with
  | none => exact ⟨rfl, hR⟩
  | some hAfter => exact ⟨rfl, hAfter⟩

variable [Scoping σ] [Scoping τ]

/-- One operation. -/
def perform (s : σ) : Operation → Answer × σ
  | .define name b => (.done, define s name b)
  | .get name => (.binding (get? s name), s)
  | .assign name v => settle s (assign? s name v)
  | .push => (.done, push s)
  | .pop => (.done, pop s)

/-- The answers to operations in order, each with the number of scopes after it. -/
def answersFrom (s : σ) : List Operation → List (Answer × Nat)
  | [] => []
  | op :: ops => ((perform s op).1, depth (perform s op).2) :: answersFrom (perform s op).2 ops

/-- The answers to operations in order, from one scope without names on. -/
def answers (σ : Type) [Scoping σ] (ops : List Operation) : List (Answer × Nat) :=
  answersFrom (new : σ) ops

/-- Related states give the same answers, and every operation leads to related states. -/
structure Simulation (R : σ → τ → Prop) : Prop where
  new : R new new
  depth : ∀ {s t}, R s t → depth s = depth t
  get? : ∀ {s t}, R s t → ∀ name, get? s name = get? t name
  define : ∀ {s t}, R s t → ∀ name b, R (define s name b) (define t name b)
  assign? : ∀ {s t}, R s t → ∀ name v, Option.Rel R (assign? s name v) (assign? t name v)
  push : ∀ {s t}, R s t → R (push s) (push t)
  pop : ∀ {s t}, R s t → R (pop s) (pop t)

namespace Simulation

variable {R : σ → τ → Prop}

theorem perform (h : Simulation R) {s : σ} {t : τ} (hR : R s t) (op : Operation) :
    (Scoping.perform s op).1 = (Scoping.perform t op).1 ∧
      R (Scoping.perform s op).2 (Scoping.perform t op).2 := by
  cases op with
  | define name b => exact ⟨rfl, h.define hR name b⟩
  | get name => exact ⟨congrArg Answer.binding (h.get? hR name), hR⟩
  | assign name v => exact related_settle hR (h.assign? hR name v)
  | push => exact ⟨rfl, h.push hR⟩
  | pop => exact ⟨rfl, h.pop hR⟩

theorem answersFrom_eq (h : Simulation R) {s : σ} {t : τ} (hR : R s t) (ops : List Operation) :
    answersFrom s ops = answersFrom t ops := by
  induction ops generalizing s t with
  | nil => rfl
  | cons op ops ih =>
      obtain ⟨hAnswer, hAfter⟩ := h.perform hR op
      rw [answersFrom, answersFrom, hAnswer, h.depth hAfter, ih hAfter]

/-- Both give the same answers, whatever is asked of them. -/
theorem answers_eq (h : Simulation R) (ops : List Operation) : answers σ ops = answers τ ops :=
  h.answersFrom_eq h.new ops

end Simulation

end Scoping

/-! ## Stacks of maps -/

/-- A map from each name to its binding, if it has one. -/
abbrev NameMap : Type :=
  String → Option Binding

/-- Maps on top of each other; there is always one. -/
structure MapStack where
  top : NameMap
  below : List NameMap

namespace MapStack

/-- All maps, the topmost first. -/
def maps (s : MapStack) : List NameMap :=
  s.top :: s.below

/-- The position of the topmost map that contains a name. -/
def holder? (s : MapStack) (name : String) : Option Nat :=
  s.maps.findIdx? fun m => (m name).isSome

/-- Changes the map at a position. -/
def modify (s : MapStack) (g : NameMap → NameMap) : Nat → MapStack
  | 0 => { s with top := g s.top }
  | i + 1 => { s with below := s.below.modify i g }

instance : Scoping MapStack where
  new := ⟨fun _ => none, []⟩
  define s name b := { s with top := Function.update s.top name (some b) }
  get? s name := do
    let i ← s.holder? name
    let m ← s.maps[i]?
    m name
  assign? s name v :=
    (s.holder? name).map (s.modify (Function.update · name (some (.initialized v))))
  push s := ⟨fun _ => none, s.maps⟩
  pop s :=
    match s.below with
    | [] => s
    | m :: rest => ⟨m, rest⟩
  depth s := s.maps.length

theorem maps_modify (s : MapStack) (g : NameMap → NameMap) (i : Nat) :
    (s.modify g i).maps = s.maps.modify i g := by
  cases i <;> rfl

/-- What is found in the topmost map that contains a name is the first thing found at all. -/
theorem get?_eq (s : MapStack) (name : String) :
    Scoping.get? s name = s.maps.findSome? fun m => m name := by
  show (s.holder? name).bind (fun i => (s.maps[i]?).bind fun m => m name) = _
  rw [holder?]
  induction s.maps with
  | nil => rfl
  | cons m rest ih =>
      rw [List.findIdx?_cons, List.findSome?_cons]
      cases hName : m name with
      | some b => simp [hName]
      | none => simpa [Option.bind_map, Function.comp_def] using ih

end MapStack

/-! ## Environments -/

namespace Environment

instance : Scoping Environment where
  new := .new
  define := define
  get? := get?
  assign? := assign?
  push := push
  pop := pop
  depth := depth

/-- The frames are the maps, one by one. -/
def Shows (env : Environment) (s : MapStack) : Prop :=
  env.frames.map Frame.get? = s.maps

theorem get?_set_eq_update (f : Frame) (name : String) (b : Binding) :
    (f.set name b).get? = Function.update f.get? name (some b) := by
  funext x
  rw [Frame.get?_set, Function.update_apply]

namespace Shows

variable {env env' : Environment} {s : MapStack}

theorem define (h : env.Shows s) (name : String) (b : Binding) :
    (env.define name b).Shows (Scoping.define s name b) := by
  obtain ⟨hTop, hBelow⟩ := List.cons_eq_cons.1 h
  show (env.current.set name b).get? :: env.outer.map Frame.get? =
    Function.update s.top name (some b) :: s.below
  rw [get?_set_eq_update, hTop, hBelow]

theorem pop (h : env.Shows s) : env.pop.Shows (Scoping.pop s) := by
  obtain ⟨current, outer⟩ := env
  obtain ⟨top, below⟩ := s
  obtain ⟨hTop, hBelow⟩ := List.cons_eq_cons.1 h
  subst hBelow
  cases outer with
  | nil => exact h
  | cons f rest => rfl

/-- The innermost frame that binds a name is the topmost map that contains it. -/
theorem holder?_eq (h : env.Shows s) (name : String) : s.holder? name = env.home? name := by
  rw [MapStack.holder?, ← h, List.findIdx?_map]
  rfl

theorem modify (h : env.Shows s) {i : Nat} {name : String} {b : Binding}
    (hFrames : env'.frames = env.frames.modify i (·.set name b)) :
    env'.Shows (s.modify (Function.update · name (some b)) i) := by
  rw [Shows, hFrames, MapStack.maps_modify, ← h]
  apply List.ext_getElem?
  intro j
  rw [List.getElem?_map, List.getElem?_modify, List.getElem?_modify, List.getElem?_map]
  cases env.frames[j]? with
  | none => rfl
  | some f => by_cases hj : i = j <;> simp [hj, get?_set_eq_update]

theorem assign? (h : env.Shows s) (name : String) (v : Value) :
    Option.Rel Shows (env.assign? name v) (Scoping.assign? s name v) := by
  have hRight : Scoping.assign? s name v =
      (env.home? name).map (s.modify (Function.update · name (some (.initialized v)))) := by
    rw [← h.holder?_eq]
    rfl
  cases hAssign : env.assign? name v with
  | none =>
      have hFrames := frames_assign? env name v
      rw [hAssign, assignIn_eq, Option.map_none, eq_comm, Option.map_eq_none_iff] at hFrames
      rw [hRight, home?, hFrames]
      exact .none
  | some env' =>
      obtain ⟨i, hHome, hFrames⟩ := frames_of_assign? hAssign
      rw [hRight, hHome]
      exact .some (h.modify hFrames)

end Shows

/-- An environment is a stack of maps. -/
theorem simulation : Scoping.Simulation Shows where
  new := rfl
  depth {env s} h := by
    show env.frames.length = s.maps.length
    rw [← h, List.length_map]
  get? {env s} h name := by
    rw [MapStack.get?_eq, ← h, List.findSome?_map]
    rfl
  define h := h.define
  assign? h := h.assign?
  push h := congrArg (List.cons _) h
  pop h := h.pop

end Environment

end TinyScript
