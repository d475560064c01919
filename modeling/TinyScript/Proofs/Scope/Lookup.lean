import TinyScript.Scope.Environment

/-!
# Environments seen through look-up

What the operations on an environment do to the binding that each name has there. A
declaration and an assignment change the binding of one name and no other; they differ in
what they do for a name that is not bound, and in the frame that they change, which cannot
be seen by looking a name up.

The second half is about one frame on top of an environment, and about all frames made
one: an environment can be collapsed to a single frame that holds what is visible in it.

## Main results

* `Environment.get?_define`, `Environment.get?_push`, `Environment.get?_of_assign?`: look-up
  after each operation, and `Environment.assign?_eq_none_iff`: when there is nothing to assign.
* `Environment.get?_onTop`, `Environment.assign?_onTop`: look-up and assignment, frame by frame.
* `Environment.get?_collapsed`: the collapsed environment shows the same bindings.
-/

namespace TinyScript

namespace Frame

theorem binds_eq_false_iff {f : Frame} {name : String} :
    f.binds name = false ↔ f.get? name = none := by
  rw [binds, Option.isSome_eq_false_iff, Option.isNone_iff_eq_none]

/-- Two frames in which a name has the same binding both bind it or both do not. -/
theorem binds_congr {f f' : Frame} {name : String} (h : f.get? name = f'.get? name) :
    f.binds name = f'.binds name := by
  rw [binds, binds, h]

/-! ## One frame above another -/

/-- The bindings of the inner frame, and those of the outer one that it does not hide. -/
def above (inner outer : Frame) : Frame :=
  ⟨inner.entries ++ outer.entries.filter fun entry => !inner.binds entry.1⟩

theorem lookup_filter_binds (inner : Frame) (name : String) (entries : List (String × Binding)) :
    (entries.filter fun entry => !inner.binds entry.1).lookup name =
      if inner.binds name then none else entries.lookup name := by
  induction entries with
  | nil => simp
  | cons entry rest ih =>
      obtain ⟨key, b⟩ := entry
      by_cases hKey : name = key
      · subst hKey
        by_cases hBinds : inner.binds name
        · simp [hBinds, ih]
        · simp [hBinds]
      · have hBeq : (name == key) = false := by simpa using hKey
        by_cases hBinds : inner.binds key
        · simp [hBinds, ih, List.lookup_cons, hBeq]
        · simp [hBinds, ih, List.lookup_cons, hBeq]

theorem get?_above (inner outer : Frame) (name : String) :
    (inner.above outer).get? name = (inner.get? name).or (outer.get? name) := by
  rw [above, get?, List.lookup_append, lookup_filter_binds]
  show (inner.get? name).or (if inner.binds name then none else outer.get? name) = _
  cases hInner : inner.get? name with
  | none => rw [binds_eq_false_iff.2 hInner, if_neg Bool.false_ne_true]
  | some b => rfl

end Frame

namespace Environment

/-! ## Look-up after each operation -/

theorem get?_eq (env : Environment) (name : String) :
    env.get? name = (env.current.get? name).or (env.outer.findSome? (·.get? name)) := by
  rw [get?, frames, List.findSome?_cons]
  cases env.current.get? name <;> rfl

/-- A declaration changes the binding of its name, and no other. -/
@[simp]
theorem get?_define (env : Environment) (name other : String) (b : Binding) :
    (env.define name b).get? other = if other = name then some b else env.get? other := by
  rw [get?_eq, get?_eq, define, Frame.get?_set]
  by_cases h : other = name
  · rw [if_pos h, if_pos h]
    rfl
  · rw [if_neg h, if_neg h]

/-- A frame that binds no name hides none. -/
@[simp]
theorem get?_push (env : Environment) (name : String) : env.push.get? name = env.get? name := by
  rw [get?_eq]
  rfl

theorem findSome?_assignIn {name : String} {v : Value} {fs fs' : List Frame}
    (h : assignIn name v fs = some fs') (other : String) :
    fs'.findSome? (·.get? other) =
      if other = name then some (.initialized v) else fs.findSome? (·.get? other) := by
  induction fs generalizing fs' with
  | nil => cases h
  | cons f rest ih =>
      rw [assignIn] at h
      by_cases hBinds : f.binds name = true
      · rw [if_pos hBinds] at h
        cases h
        by_cases hName : other = name
        · simp [hName]
        · simp [List.findSome?_cons, hName]
      · rw [if_neg hBinds] at h
        obtain ⟨rest', hRest, rfl⟩ := Option.map_eq_some_iff.1 h
        rw [List.findSome?_cons, List.findSome?_cons, ih hRest]
        by_cases hName : other = name
        · have hNone : f.get? name = none := Frame.binds_eq_false_iff.1 (by simpa using hBinds)
          rw [if_pos hName, if_pos hName, hName, hNone]
        · rw [if_neg hName, if_neg hName]

theorem assignIn_eq_none_iff {name : String} {v : Value} {fs : List Frame} :
    assignIn name v fs = none ↔ fs.findSome? (·.get? name) = none := by
  induction fs with
  | nil => simp [assignIn]
  | cons f rest ih =>
      rw [assignIn, List.findSome?_cons]
      by_cases hBinds : f.binds name = true
      · obtain ⟨b, hSome⟩ := Option.isSome_iff_exists.1 hBinds
        simp [hBinds, hSome]
      · have hNone : f.get? name = none := Frame.binds_eq_false_iff.1 (by simpa using hBinds)
        rw [if_neg hBinds, hNone, Option.map_eq_none_iff, ih]

/-- Assigning in the stack is assigning in the list of its frames. -/
theorem frames_assign? (env : Environment) (name : String) (v : Value) :
    (env.assign? name v).map frames = assignIn name v env.frames := by
  rw [assign?, frames, assignIn]
  by_cases hBinds : env.current.binds name = true
  · rw [if_pos hBinds, if_pos hBinds]
    rfl
  · rw [if_neg hBinds, if_neg hBinds, Option.map_map]
    rfl

/-- There is something to assign exactly if the name is bound. -/
theorem assign?_eq_none_iff {env : Environment} {name : String} {v : Value} :
    env.assign? name v = none ↔ env.get? name = none := by
  rw [← Option.map_eq_none_iff (f := frames), frames_assign?, assignIn_eq_none_iff]
  rfl

/-- An assignment changes the binding of its name, and no other. -/
theorem get?_of_assign? {env env' : Environment} {name : String} {v : Value}
    (h : env.assign? name v = some env') (other : String) :
    env'.get? other = if other = name then some (.initialized v) else env.get? other := by
  have hFrames : assignIn name v env.frames = some env'.frames := by
    rw [← frames_assign?, h]
    rfl
  exact findSome?_assignIn hFrames other

/-! ## One frame on top -/

/-- The environment with a frame on top of it. -/
def onTop (f : Frame) (env : Environment) : Environment :=
  ⟨f, env.frames⟩

theorem get?_onTop (f : Frame) (env : Environment) (name : String) :
    (onTop f env).get? name = (f.get? name).or (env.get? name) :=
  get?_eq _ name

theorem define_onTop (f : Frame) (env : Environment) (name : String) (b : Binding) :
    (onTop f env).define name b = onTop (f.set name b) env :=
  rfl

/-- An assignment stops at the frame on top if that one binds the name, and passes it by if
not. -/
theorem assign?_onTop (f : Frame) (env : Environment) (name : String) (v : Value) :
    (onTop f env).assign? name v =
      if f.binds name then some (onTop (f.set name (.initialized v)) env)
      else (env.assign? name v).map (onTop f) := by
  rw [assign?, onTop, ← frames_assign?, Option.map_map]
  rfl

/-! ## All frames as one -/

/-- The bindings that are visible, as one frame. -/
def visible (env : Environment) : Frame :=
  env.outer.foldl Frame.above env.current

/-- The environment whose only frame holds the visible bindings. -/
def collapsed (env : Environment) : Environment :=
  ⟨env.visible, []⟩

theorem get?_foldl_above (f : Frame) (fs : List Frame) (name : String) :
    (fs.foldl Frame.above f).get? name = (f.get? name).or (fs.findSome? (·.get? name)) := by
  induction fs generalizing f with
  | nil => simp
  | cons g rest ih =>
      rw [List.foldl_cons, ih, Frame.get?_above, List.findSome?_cons, Option.or_assoc]
      cases g.get? name <;> rfl

/-- The collapsed environment shows every name as the whole stack does. -/
@[simp]
theorem get?_collapsed (env : Environment) (name : String) :
    env.collapsed.get? name = env.get? name := by
  rw [get?_eq, get?_eq env, collapsed, visible, get?_foldl_above]
  simp

end Environment

end TinyScript
