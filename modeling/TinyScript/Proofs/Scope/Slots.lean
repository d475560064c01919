import TinyScript.Proofs.Scope.Lookup

/-!
# Environments slot by slot

Looking a name up shows its innermost binding and nothing of the frames behind it. To say
what an operation leaves alone, the stack has to be seen as a whole. A slot is a name in one
of the frames, and it holds a binding or nothing; frames are counted from the current one
outwards. A stack is known by its depth and its slots.

Each operation has one equation here. A declaration fills a slot of the current frame, an
assignment fills the slot of the innermost frame that binds the name, and opening or closing
a frame moves all slots by one.

## Main results

* `Environment.home?_eq_some_iff`: the innermost frame that binds a name.
* `Environment.slot?_define`, `Environment.slot?_push_succ`, `Environment.slot?_pop`,
  `Environment.slot?_of_assign?`: slots after each operation.
-/

namespace TinyScript

namespace Environment

variable {env env' : Environment} {name : String} {i : Nat} {v : Value}

/-- The binding of a name in the frame at position `i`; the current frame is at position `0`. -/
def slot? (env : Environment) (i : Nat) (name : String) : Option Binding :=
  env.frames[i]?.bind (·.get? name)

/-- Whether the frame at position `i` binds a name. -/
def bindsAt (env : Environment) (i : Nat) (name : String) : Bool :=
  (env.slot? i name).isSome

/-- The position of the innermost frame that binds a name. -/
def home? (env : Environment) (name : String) : Option Nat :=
  env.frames.findIdx? (·.binds name)

theorem bindsAt_of_lt (h : i < env.frames.length) (name : String) :
    env.bindsAt i name = env.frames[i].binds name := by
  rw [bindsAt, slot?, List.getElem?_eq_getElem h]
  rfl

theorem lt_of_bindsAt (h : env.bindsAt i name = true) : i < env.frames.length := by
  refine Nat.lt_of_not_le fun hLe => ?_
  rw [bindsAt, slot?, List.getElem?_eq_none hLe] at h
  cases h

/-- The innermost frame that binds a name does so, and none before it does. -/
theorem home?_eq_some_iff :
    env.home? name = some i ↔
      env.bindsAt i name = true ∧ ∀ j < i, env.bindsAt j name = false := by
  rw [home?, List.findIdx?_eq_some_iff_getElem]
  constructor
  · rintro ⟨hLt, hBinds, hBefore⟩
    refine ⟨by rw [bindsAt_of_lt hLt, hBinds], fun j hj => ?_⟩
    rw [bindsAt_of_lt (Nat.lt_trans hj hLt)]
    exact Bool.eq_false_iff.2 (hBefore j hj)
  · rintro ⟨hBinds, hBefore⟩
    have hLt := lt_of_bindsAt hBinds
    refine ⟨hLt, by rw [← bindsAt_of_lt hLt, hBinds], fun j hj => ?_⟩
    rw [← bindsAt_of_lt (Nat.lt_trans hj hLt), hBefore j hj]
    exact Bool.false_ne_true

theorem home?_congr (h : ∀ i, env'.bindsAt i name = env.bindsAt i name) :
    env'.home? name = env.home? name := by
  ext i
  simp only [home?_eq_some_iff, h]

/-! ## Slots after each operation -/

theorem slot?_define (env : Environment) (name : String) (b : Binding) (i : Nat) (x : String) :
    (env.define name b).slot? i x = if i = 0 ∧ x = name then some b else env.slot? i x := by
  cases i with
  | zero =>
      show (env.current.set name b).get? x = if 0 = 0 ∧ x = name then some b else env.current.get? x
      rw [Frame.get?_set]
      simp only [true_and]
  | succ i =>
      rw [if_neg fun hZero => Nat.succ_ne_zero i hZero.1]
      rfl

/-- Of a name that is declared, the current frame has a binding; all else is bound as before. -/
theorem bindsAt_define (env : Environment) (name : String) (b : Binding) (i : Nat) (x : String) :
    (env.define name b).bindsAt i x = (decide (i = 0 ∧ x = name) || env.bindsAt i x) := by
  rw [bindsAt, slot?_define]
  split
  · next hSlot => simp [hSlot]
  · next hSlot => simp [hSlot, bindsAt]

theorem slot?_push_succ (env : Environment) (i : Nat) (x : String) :
    env.push.slot? (i + 1) x = env.slot? i x :=
  rfl

theorem slot?_pop (h : 1 < env.depth) (i : Nat) (x : String) :
    env.pop.slot? i x = env.slot? (i + 1) x := by
  obtain ⟨current, outer⟩ := env
  cases outer with
  | nil => simp [depth, frames] at h
  | cons f rest => rfl

/-- Closing a frame that is not the last one leaves one less. -/
theorem depth_pop (h : 1 < env.depth) : env.pop.depth + 1 = env.depth := by
  obtain ⟨current, outer⟩ := env
  cases outer with
  | nil => simp [depth, frames] at h
  | cons f rest => rfl

/-- An assignment among frames changes the first of them that binds the name. -/
theorem assignIn_eq (name : String) (v : Value) (fs : List Frame) :
    assignIn name v fs =
      (fs.findIdx? (·.binds name)).map fun i => fs.modify i (·.set name (.initialized v)) := by
  induction fs with
  | nil => rfl
  | cons f rest ih =>
      rw [assignIn, List.findIdx?_cons]
      by_cases hBinds : f.binds name = true
      · rw [if_pos hBinds, if_pos hBinds]
        rfl
      · rw [if_neg hBinds, if_neg hBinds, ih, Option.map_map, Option.map_map]
        rfl

theorem frames_of_assign? (h : env.assign? name v = some env') :
    ∃ i, env.home? name = some i ∧
      env'.frames = env.frames.modify i (·.set name (.initialized v)) := by
  have hFrames := frames_assign? env name v
  rw [h, assignIn_eq] at hFrames
  obtain ⟨i, hHome, hModify⟩ := Option.map_eq_some_iff.1 hFrames.symm
  exact ⟨i, hHome, hModify.symm⟩

theorem depth_of_assign? (h : env.assign? name v = some env') : env'.depth = env.depth := by
  obtain ⟨i, -, hFrames⟩ := frames_of_assign? h
  rw [depth, depth, hFrames, List.length_modify]

/-- An assignment fills one slot, that of the innermost frame that binds the name. -/
theorem slot?_of_assign? (h : env.assign? name v = some env') (i : Nat) (x : String) :
    env'.slot? i x =
      if x = name ∧ env.home? name = some i then some (.initialized v) else env.slot? i x := by
  obtain ⟨k, hHome, hFrames⟩ := frames_of_assign? h
  rw [slot?, slot?, hFrames, List.getElem?_modify, hHome]
  by_cases hPosition : k = i
  · subst hPosition
    have hLt := lt_of_bindsAt (home?_eq_some_iff.1 hHome).1
    rw [List.getElem?_eq_getElem hLt]
    simp
  · have hOther : ¬(x = name ∧ some k = some i) := fun hBoth => hPosition (Option.some.inj hBoth.2)
    rw [if_neg hOther]
    simp [hPosition]

end Environment

end TinyScript
