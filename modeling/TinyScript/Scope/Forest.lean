import TinyScript.Scope.Frame

/-!
# Forests of shared scopes

Scopes that outlive the stack: a scope is reached through handles, and through the
scopes inside it. Each scope counts who refers to it and dies when nobody does, and
then lets go of the scope around it. A scope is numbered by its age, and the scope
around it is always older, which is why every walk outwards ends.
-/

namespace TinyScript

/-- A scope that is shared by handles and by the scopes inside it. -/
structure SharedScope where
  frame : Frame
  /-- The scope around this one. -/
  parent : Option Nat
  /-- Number of handles and of inner scopes that refer to this scope. -/
  count : Nat

/-- Scopes by age, and the handles given out so far. -/
structure Forest where
  scopes : List SharedScope
  /-- The scope that each handle refers to, if the handle has not been dropped. -/
  handles : List (Option Nat)

namespace Forest

/-- The forest without scopes. -/
def empty : Forest := ⟨[], []⟩

/-- The scope that a handle refers to. -/
def target? (f : Forest) (handle : Nat) : Option Nat :=
  (f.handles[handle]?).join

/-- Counts one more reference to a scope. -/
def retain (scopes : List SharedScope) (id : Nat) : List SharedScope :=
  scopes.modify id fun s => { s with count := s.count + 1 }

/-- Counts one reference less to a scope; the last one releases the scope around it. -/
def release (scopes : List SharedScope) (id : Nat) : List SharedScope :=
  match scopes[id]? with
  | none => scopes
  | some s =>
    let remaining := scopes.set id { s with count := s.count - 1 }
    match s.parent with
    | some parent =>
      if s.count ≤ 1 ∧ parent < id then release remaining parent else remaining
    | none => remaining
termination_by id

/-- Adds a scope and a first handle to it. -/
def add (f : Forest) (parent : Option Nat) : Forest :=
  ⟨f.scopes ++ [⟨.empty, parent, 1⟩], f.handles ++ [some f.scopes.length]⟩

/-- Adds a scope with no scope around it. -/
def newRoot (f : Forest) : Forest :=
  f.add none

/-- Adds a scope inside the scope of a handle. -/
def newChild (f : Forest) (handle : Nat) : Forest :=
  match f.target? handle with
  | some id => add { f with scopes := retain f.scopes id } (some id)
  | none => f

/-- Adds a handle to the scope of a handle. -/
def clone (f : Forest) (handle : Nat) : Forest :=
  match f.target? handle with
  | some id => ⟨retain f.scopes id, f.handles ++ [some id]⟩
  | none => f

/-- Gives up a handle. -/
def drop (f : Forest) (handle : Nat) : Forest :=
  match f.target? handle with
  | some id => ⟨release f.scopes id, f.handles.set handle none⟩
  | none => f

/-- The number of references to the scope of a handle; none for a dropped handle. -/
def handleCount (f : Forest) (handle : Nat) : Nat :=
  match f.target? handle with
  | some id => (f.scopes[id]?.map SharedScope.count).getD 0
  | none => 0

/-- The nearest scope that binds a name, from a scope outwards. -/
def owner? (scopes : List SharedScope) (id : Nat) (name : String) : Option Nat :=
  match scopes[id]? with
  | none => none
  | some s =>
    if s.frame.binds name then
      some id
    else
      match s.parent with
      | some parent => if parent < id then owner? scopes parent name else none
      | none => none
termination_by id

/-- Declares a name in the scope of a handle. -/
def define (f : Forest) (handle : Nat) (name : String) (b : Binding) : Forest :=
  match f.target? handle with
  | some id =>
    { f with scopes := f.scopes.modify id fun s => { s with frame := s.frame.set name b } }
  | none => f

/-- The binding of a name, seen through a handle. -/
def lookup? (f : Forest) (handle : Nat) (name : String) : Option Binding := do
  let id ← f.target? handle
  let owner ← owner? f.scopes id name
  let s ← f.scopes[owner]?
  s.frame.get? name

/-- Gives a name a value in the nearest scope that binds it, seen through a handle. -/
def assign? (f : Forest) (handle : Nat) (name : String) (v : Value) : Option Forest := do
  let id ← f.target? handle
  let owner ← owner? f.scopes id name
  let written := f.scopes.modify owner fun s =>
    { s with frame := s.frame.set name (.initialized v) }
  return { f with scopes := written }

end Forest

end TinyScript
