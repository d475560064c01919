import TinyScript.Value.Basic

/-!
# Frames

A frame holds the names that one scope binds. A name can be bound before it has a
value, so a binding is either a value or the lack of one. What a frame is, seen from
outside, is the function `Frame.get?`.
-/

namespace TinyScript

/-- What a name stands for. -/
inductive Binding where
  | uninitialized
  | initialized (value : Value)
deriving BEq, Repr

/-- The names that one scope binds. -/
structure Frame where
  entries : List (String × Binding)

namespace Frame

/-- The frame that binds no name. -/
def empty : Frame := ⟨[]⟩

/-- The binding of a name. -/
def get? (f : Frame) (name : String) : Option Binding :=
  f.entries.lookup name

/-- Whether a name is bound. -/
def binds (f : Frame) (name : String) : Bool :=
  (f.get? name).isSome

/-- Replaces the entry of a name, or adds one at the end. -/
def setEntry (name : String) (b : Binding) : List (String × Binding) → List (String × Binding)
  | [] => [(name, b)]
  | (key, old) :: rest =>
    if name == key then (name, b) :: rest else (key, old) :: setEntry name b rest

/-- Binds a name, whether it was bound before or not. -/
def set (f : Frame) (name : String) (b : Binding) : Frame :=
  ⟨setEntry name b f.entries⟩

@[simp]
theorem get?_empty (name : String) : empty.get? name = none :=
  rfl

theorem lookup_setEntry (name other : String) (b : Binding) (entries : List (String × Binding)) :
    (setEntry name b entries).lookup other =
      if other = name then some b else entries.lookup other := by
  induction entries with
  | nil =>
    by_cases h : other = name
    · subst h
      simp [setEntry]
    · have hBeq : (other == name) = false := by simpa using h
      simp [setEntry, List.lookup_cons, h, hBeq]
  | cons entry rest ih =>
    obtain ⟨key, old⟩ := entry
    by_cases hKey : name = key
    · subst hKey
      by_cases h : other = name
      · subst h
        simp [setEntry]
      · have hBeq : (other == name) = false := by simpa using h
        simp [setEntry, List.lookup_cons, h, hBeq]
    · have hNe : (name == key) = false := by simpa using hKey
      simp only [setEntry, hNe, Bool.false_eq_true, if_false, List.lookup_cons]
      by_cases hOther : other = key
      · subst hOther
        have hName : other ≠ name := fun h => hKey h.symm
        simp [hName]
      · have hBeq : (other == key) = false := by simpa using hOther
        simp [hBeq, ih]

/-- Binding a name changes what that name stands for, and nothing else. -/
@[simp]
theorem get?_set (f : Frame) (name other : String) (b : Binding) :
    (f.set name b).get? other = if other = name then some b else f.get? other :=
  lookup_setEntry name other b f.entries

end Frame

end TinyScript
