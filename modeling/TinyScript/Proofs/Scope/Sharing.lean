import Mathlib.Data.List.TakeWhile
import Mathlib.Logic.Relation
import TinyScript.Proofs.Scope.Lineage

/-!
# Shared scopes are counted

A scope counts its references: the handles to it, and the live scopes directly inside it.
The count decides when a scope dies, so it has to be right in every forest that can be
reached. It is right between operations only. A new reference is counted before it is
there, and a reference that is given up is still counted when it is gone; while a release
goes on, the one count that is too high moves from scope to scope outwards. `Counted` is
the invariant with that one count as a parameter, and each part of an operation moves it.

## Main results

* `Counted.release`: a release ends with all counts right.
* `Sound.live_iff`: a scope is live if and only if a handle leads to it.
* `Sound.live_drop_iff`: which scopes die when a handle is dropped.
* `referenceCounted_after`: after every sequence of operations the counts are those of the
  references, scopes live as long as handles lead to them, and a drop frees the right ones.
-/

namespace TinyScript.Forest

/-! ## The invariant -/

/-- Number of live scopes directly inside a scope. -/
def inner (scopes : List SharedScope) (id : Nat) : Nat :=
  scopes.countP fun s => 0 < s.count ∧ s.parent = some id

/-- Every scope counts the handles to it and the live scopes inside it, and the scope
`extra`, if there is one, counts one more. -/
structure Counted (handles : List (Option Nat)) (scopes : List SharedScope) (extra : Option Nat) :
    Prop where
  layered : Layered scopes
  target : ∀ id, some id ∈ handles → id < scopes.length
  count : ∀ (id : Nat) (s : SharedScope), scopes[id]? = some s →
    s.count = handles.count (some id) + inner scopes id + if extra = some id then 1 else 0

variable {handles : List (Option Nat)} {scopes : List SharedScope} {extra extra' : Option Nat}
  {id : Nat} {s : SharedScope}

/-- What one changed scope does to the number of live scopes inside another. -/
theorem inner_modify (g : SharedScope → SharedScope) (hScope : scopes[id]? = some s) (k : Nat) :
    inner (scopes.modify id g) k + (if 0 < s.count ∧ s.parent = some k then 1 else 0) =
      inner scopes k + if 0 < (g s).count ∧ (g s).parent = some k then 1 else 0 := by
  obtain ⟨hId, rfl⟩ := List.getElem?_eq_some_iff.1 hScope
  have hSet : scopes.modify id g = scopes.set id (g scopes[id]) := by
    rw [List.modify_eq_set_getElem?, hScope]
    rfl
  rw [inner, inner, hSet, List.countP_set hId]
  simp only [decide_eq_true_eq]
  by_cases hLive : 0 < scopes[id].count ∧ scopes[id].parent = some k
  · have hSome : 0 < scopes.countP fun s => decide (0 < s.count ∧ s.parent = some k) :=
      List.countP_pos_iff.2 ⟨scopes[id], List.getElem_mem hId, decide_eq_true hLive⟩
    rw [if_pos hLive]
    omega
  · rw [if_neg hLive]
    omega

theorem inner_append (scopes : List SharedScope) (s : SharedScope) (k : Nat) :
    inner (scopes ++ [s]) k =
      inner scopes k + if 0 < s.count ∧ s.parent = some k then 1 else 0 := by
  simp [inner, List.countP_append, List.countP_singleton]

/-- With one more scope, every scope is an old one or the new one. -/
theorem old_or_new {new : SharedScope} {k : Nat} (h : (scopes ++ [new])[k]? = some s) :
    scopes[k]? = some s ∨ k = scopes.length ∧ s = new := by
  rw [List.getElem?_append] at h
  split at h
  · exact .inl h
  · rw [List.getElem?_singleton] at h
    split at h
    · exact .inr ⟨by omega, (Option.some.inj h).symm⟩
    · cases h

/-- Nothing is inside a scope that is not there. -/
theorem inner_length (h : Layered scopes) : inner scopes scopes.length = 0 := by
  rw [inner, List.countP_eq_zero]
  intro s hs
  obtain ⟨k, hk, rfl⟩ := List.getElem_of_mem hs
  intro hInside
  have hParent : scopes[k].parent = some scopes.length := (of_decide_eq_true hInside).2
  have hOlder := h k _ _ (List.getElem?_eq_getElem hk) hParent
  omega

namespace Counted

/--
One scope is changed, and the count that is too high may move. The counts stay right if
what the scope counts, what is too high and what the scope is worth to the scope around
it balance before and after.
-/
theorem modify {g : SharedScope → SharedScope} (h : Counted handles scopes extra)
    (hScope : scopes[id]? = some s) (hParent : ∀ s, (g s).parent = s.parent)
    (hBalance : ∀ k, (if id = k then (g s).count else 0) + (if extra = some k then 1 else 0) +
        (if 0 < s.count ∧ s.parent = some k then 1 else 0) =
      (if id = k then s.count else 0) + (if extra' = some k then 1 else 0) +
        if 0 < (g s).count ∧ s.parent = some k then 1 else 0) :
    Counted handles (scopes.modify id g) extra' := by
  constructor
  · exact h.layered.congr (parent_modify hParent scopes id)
  · intro k hk
    rw [List.length_modify]
    exact h.target k hk
  · intro k s' hs'
    have hInner := inner_modify g hScope k
    have hBalanced := hBalance k
    rw [hParent] at hInner
    rw [List.getElem?_modify] at hs'
    obtain ⟨old, hOld, rfl⟩ := Option.map_eq_some_iff.1 hs'
    have hCount := h.count k old hOld
    by_cases hk : id = k
    · subst hk
      obtain rfl : old = s := Option.some.inj (hOld.symm.trans hScope)
      simp only [if_true] at hBalanced ⊢
      omega
    · simp only [hk, if_false] at hBalanced ⊢
      omega

/-- A reference to a live scope is counted before it is there. -/
theorem retain (h : Counted handles scopes none) (hScope : scopes[id]? = some s)
    (hLive : 0 < s.count) : Counted handles (Forest.retain scopes id) (some id) := by
  refine h.modify hScope (fun _ => rfl) fun k => ?_
  by_cases hk : id = k <;> simp [hk, hLive]

/-- Changing what a scope binds changes no count. -/
theorem reframe (h : Counted handles scopes extra) (id : Nat) (g : Frame → Frame) :
    Counted handles (scopes.modify id fun s => { s with frame := g s.frame }) extra := by
  cases hScope : scopes[id]? with
  | none =>
      rw [List.modify_eq_set_getElem?, hScope]
      exact h
  | some s => exact h.modify hScope (fun _ => rfl) fun k => rfl

theorem addHandle (h : Counted handles scopes (some id)) (hId : id < scopes.length) :
    Counted (handles ++ [some id]) scopes none := by
  refine ⟨h.layered, ?_, ?_⟩
  · intro k hk
    rcases List.mem_append.1 hk with hk | hk
    · exact h.target k hk
    · obtain rfl : k = id := Option.some.inj (List.mem_singleton.1 hk)
      exact hId
  · intro k s hs
    have hCount := h.count k s hs
    rw [List.count_append, List.count_singleton]
    by_cases hk : id = k
    · simp only [hk, if_true, beq_self_eq_true, reduceCtorEq, if_false] at hCount ⊢
      omega
    · simp only [Option.some.injEq, hk, if_false, beq_iff_eq, reduceCtorEq] at hCount ⊢
      omega

/-- A new scope has one handle, and it is inside the scope whose count is too high. -/
theorem addScope (h : Counted handles scopes extra) (hExtra : ∀ id ∈ extra, id < scopes.length) :
    Counted (handles ++ [some scopes.length]) (scopes ++ [⟨.empty, extra, 1⟩]) none := by
  constructor
  · intro k s parent hs hParent
    rcases old_or_new hs with hOld | ⟨rfl, rfl⟩
    · exact h.layered k s parent hOld hParent
    · exact hExtra parent hParent
  · intro k hk
    rw [List.length_append, List.length_singleton]
    rcases List.mem_append.1 hk with hk | hk
    · have hTarget := h.target k hk
      omega
    · obtain rfl : k = scopes.length := Option.some.inj (List.mem_singleton.1 hk)
      omega
  · intro k s hs
    rw [List.count_append, List.count_singleton, inner_append]
    rcases old_or_new hs with hOld | ⟨rfl, rfl⟩
    · have hCount := h.count k s hOld
      have hNe : scopes.length ≠ k := by
        have hLt := (List.getElem?_eq_some_iff.1 hOld).1
        omega
      simp only [beq_iff_eq, Option.some.injEq, hNe, if_false, Nat.zero_lt_one, true_and,
        reduceCtorEq]
      omega
    · have hHandles : handles.count (some scopes.length) = 0 := by
        rw [List.count_eq_zero]
        intro hMem
        exact Nat.lt_irrefl _ (h.target _ hMem)
      have hOutside : extra ≠ some scopes.length := by
        intro hSelf
        exact Nat.lt_irrefl _ (hExtra _ hSelf)
      simp [hHandles, inner_length h.layered, hOutside]

/-- A handle that is given up is still counted. -/
theorem dropHandle (h : Counted handles scopes none) {handle : Nat}
    (hTarget : handles[handle]? = some (some id)) :
    Counted (handles.set handle none) scopes (some id) := by
  obtain ⟨hHandle, hGet⟩ := List.getElem?_eq_some_iff.1 hTarget
  refine ⟨h.layered, ?_, ?_⟩
  · intro k hk
    rcases List.mem_or_eq_of_mem_set hk with hMem | hNone
    · exact h.target k hMem
    · cases hNone
  · intro k s hs
    have hCount := h.count k s hs
    rw [List.count_set hHandle, hGet]
    simp only [beq_iff_eq, Option.some.injEq, reduceCtorEq, if_false] at hCount ⊢
    by_cases hk : id = k
    · subst hk
      have hSome : 0 < handles.count (some id) :=
        List.count_pos_iff.2 (hGet ▸ List.getElem_mem hHandle)
      simp only [if_true]
      omega
    · simp only [hk, if_false]
      omega

/-- A scope with another reference has one reference less. -/
theorem letGo_more (h : Counted handles scopes (some id)) (hScope : scopes[id]? = some s)
    (hMore : 1 < s.count) : Counted handles (letGo scopes id) none := by
  have hBefore : 0 < s.count := by omega
  have hAfter : 0 < s.count - 1 := by omega
  refine h.modify hScope (fun _ => rfl) fun k => ?_
  simp only [hBefore, hAfter, true_and, reduceCtorEq, if_false, Option.some.injEq]
  by_cases hk : id = k
  · simp only [hk, if_true]
    omega
  · simp only [hk, if_false]

/-- A scope without another reference dies, and the scope around it counts one too many. -/
theorem letGo_last (h : Counted handles scopes (some id)) (hScope : scopes[id]? = some s)
    (hLast : s.count = 1) : Counted handles (letGo scopes id) s.parent := by
  refine h.modify hScope (fun _ => rfl) fun k => ?_
  by_cases hk : id = k <;> simp [hk, hLast]

/-- **A release ends with all counts right.** The induction follows the walk outwards, on
which the count that is too high is handed on. -/
theorem release (h : Counted handles scopes (some id)) (hId : id < scopes.length) :
    Counted handles (Forest.release scopes id) none := by
  induction id using Nat.strongRecOn generalizing scopes with
  | ind id ih =>
      have hScope : scopes[id]? = some scopes[id] := List.getElem?_eq_getElem hId
      have hCount := h.count id _ hScope
      rw [if_pos rfl] at hCount
      rcases Nat.lt_or_ge 1 scopes[id].count with hMore | hLast
      · rw [release_of_stays hScope (.inl hMore)]
        exact h.letGo_more hScope hMore
      · have hOne : scopes[id].count = 1 := by omega
        have hHanded := h.letGo_last hScope hOne
        cases hParent : scopes[id].parent with
        | none =>
            rw [release_of_stays hScope (.inr hParent)]
            rwa [hParent] at hHanded
        | some parent =>
            have hOlder : parent < id := h.layered id _ parent hScope hParent
            rw [release_of_last hScope hLast hParent hOlder]
            rw [hParent] at hHanded
            refine ih parent hOlder hHanded ?_
            rw [letGo, List.length_modify]
            omega

end Counted

/-! ## Operations -/

/-- The counts are right. -/
def Sound (f : Forest) : Prop :=
  Counted f.handles f.scopes none

theorem target?_eq_some_iff {f : Forest} {handle : Nat} :
    f.target? handle = some id ↔ f.handles[handle]? = some (some id) :=
  Option.join_eq_some_iff

/-- What can be done with the scopes of a forest. -/
inductive Operation where
  | newRoot
  | newChild (handle : Nat)
  | clone (handle : Nat)
  | drop (handle : Nat)
  | define (handle : Nat) (name : String) (b : Binding)
  | lookup (handle : Nat) (name : String)
  | assign (handle : Nat) (name : String) (v : Value)

/-- The forest after an operation. -/
def perform (f : Forest) : Operation → Forest
  | .newRoot => f.newRoot
  | .newChild handle => f.newChild handle
  | .clone handle => f.clone handle
  | .drop handle => f.drop handle
  | .define handle name b => f.define handle name b
  | .lookup _ _ => f
  | .assign handle name v => (f.assign? handle name v).getD f

/-- The forest after a sequence of operations, from the one without scopes. -/
def after (ops : List Operation) : Forest :=
  ops.foldl perform .empty

namespace Sound

variable {f : Forest} {handle : Nat}

theorem lt_of_target (h : f.Sound) (hTarget : f.target? handle = some id) : id < f.scopes.length :=
  h.target id (List.mem_of_getElem? (target?_eq_some_iff.1 hTarget))

/-- The scope of a handle is there, and it is live. -/
theorem exists_of_target (h : f.Sound) (hTarget : f.target? handle = some id) :
    ∃ s, f.scopes[id]? = some s ∧ 0 < s.count := by
  have hScope : f.scopes[id]? = some (f.scopes.get ⟨id, h.lt_of_target hTarget⟩) :=
    List.getElem?_eq_getElem (h.lt_of_target hTarget)
  have hCount := h.count id _ hScope
  have hSome : 0 < f.handles.count (some id) :=
    List.count_pos_iff.2 (List.mem_of_getElem? (target?_eq_some_iff.1 hTarget))
  exact ⟨_, hScope, by omega⟩

theorem newChild (h : f.Sound) (handle : Nat) : (f.newChild handle).Sound := by
  unfold Forest.newChild
  split
  · next id hTarget =>
      obtain ⟨s, hScope, hLive⟩ := h.exists_of_target hTarget
      have hLength : (retain f.scopes id).length = f.scopes.length := List.length_modify ..
      refine (h.retain hScope hLive).addScope fun k hk => ?_
      obtain rfl : id = k := Option.some.inj hk
      rw [hLength]
      exact h.lt_of_target hTarget
  · exact h

theorem clone (h : f.Sound) (handle : Nat) : (f.clone handle).Sound := by
  unfold Forest.clone
  split
  · next id hTarget =>
      obtain ⟨s, hScope, hLive⟩ := h.exists_of_target hTarget
      refine (h.retain hScope hLive).addHandle ?_
      rw [retain, List.length_modify]
      exact h.lt_of_target hTarget
  · exact h

theorem drop (h : f.Sound) (handle : Nat) : (f.drop handle).Sound := by
  unfold Forest.drop
  split
  · next id hTarget =>
      have hDropped := h.dropHandle (target?_eq_some_iff.1 hTarget)
      exact hDropped.release (h.lt_of_target hTarget)
  · exact h

theorem define (h : f.Sound) (handle : Nat) (name : String) (b : Binding) :
    (f.define handle name b).Sound := by
  unfold Forest.define
  split
  · next id _ => exact h.reframe id (·.set name b)
  · exact h

theorem assign (h : f.Sound) (handle : Nat) (name : String) (v : Value) :
    ((f.assign? handle name v).getD f).Sound := by
  cases hTarget : f.target? handle with
  | none =>
      rw [Forest.assign?, hTarget]
      exact h
  | some id =>
      obtain ⟨chain, hChain⟩ := h.layered.exists_lineage (h.lt_of_target hTarget)
      rw [hChain.assign?_eq h.layered hTarget]
      cases chain.find? fun k => (bindingAt f.scopes name k).isSome with
      | none => exact h
      | some owner => exact h.reframe owner (·.set name (.initialized v))

/-- Every operation keeps the counts right. -/
theorem perform (h : f.Sound) (op : Operation) : (f.perform op).Sound := by
  cases op with
  | newRoot => exact h.addScope fun id hId => by cases hId
  | newChild handle => exact h.newChild handle
  | clone handle => exact h.clone handle
  | drop handle => exact h.drop handle
  | define handle name b => exact h.define handle name b
  | lookup handle name => exact h
  | assign handle name v => exact h.assign handle name v

end Sound

/-- The counts are right after every sequence of operations. -/
theorem sound_after (ops : List Operation) : (after ops).Sound := by
  have hEmpty : Forest.empty.Sound := by
    refine ⟨?_, ?_, ?_⟩
    · intro id s parent hs
      cases hs
    · intro id hId
      cases hId
    · intro id s hs
      cases hs
  have hRun : ∀ f : Forest, f.Sound → (ops.foldl Forest.perform f).Sound := by
    induction ops with
    | nil => exact fun f h => h
    | cons op ops ih => exact fun f h => ih _ (h.perform op)
  exact hRun _ hEmpty

/-! ## Life -/

/-- A scope that is referred to is live. -/
def Live (f : Forest) (id : Nat) : Prop :=
  0 < countAt f.scopes id

/-- One scope is directly around another. -/
def Around (f : Forest) (inside outside : Nat) : Prop :=
  ∃ s, f.scopes[inside]? = some s ∧ s.parent = some outside

/-- Number of the handles to a scope and of the live scopes directly inside it. -/
def references (f : Forest) (id : Nat) : Nat :=
  f.handles.count (some id) + inner f.scopes id

/-- The scopes at the start of a walk that nothing but the step to them refers to. -/
def released (f : Forest) (chain : List Nat) : List Nat :=
  chain.takeWhile fun k => f.references k = 1

theorem live_iff_exists {f : Forest} : f.Live id ↔ ∃ s, f.scopes[id]? = some s ∧ 0 < s.count := by
  rw [Live, countAt]
  cases f.scopes[id]? <;> simp

theorem inner_pos_iff : 0 < inner scopes id ↔
    ∃ (k : Nat) (s : SharedScope), scopes[k]? = some s ∧ 0 < s.count ∧ s.parent = some id := by
  rw [inner, List.countP_pos_iff]
  constructor
  · rintro ⟨s, hs, hInside⟩
    obtain ⟨k, hk⟩ := List.getElem?_of_mem hs
    exact ⟨k, s, hk, of_decide_eq_true hInside⟩
  · rintro ⟨k, s, hk, hInside⟩
    exact ⟨s, List.mem_of_getElem? hk, decide_eq_true hInside⟩

namespace Sound

variable {f : Forest} {handle : Nat} {chain : List Nat}

theorem countAt_eq (h : f.Sound) (hScope : f.scopes[id]? = some s) :
    countAt f.scopes id = f.references id := by
  have hCount := h.count id s hScope
  simp only [reduceCtorEq, if_false, Nat.add_zero] at hCount
  simp [countAt, hScope, hCount, references]

theorem live_of_target (h : f.Sound) (hTarget : f.target? handle = some id) : f.Live id :=
  live_iff_exists.2 (h.exists_of_target hTarget)

/-- The scope around a live scope is live. -/
theorem live_of_around (h : f.Sound) {outside : Nat} (hLive : f.Live id)
    (hAround : f.Around id outside) : f.Live outside := by
  obtain ⟨s, hScope, hParent⟩ := hAround
  obtain ⟨s', hScope', hCount⟩ := live_iff_exists.1 hLive
  obtain rfl : s = s' := Option.some.inj (hScope.symm.trans hScope')
  have hOlder : outside < id := h.layered id s outside hScope hParent
  have hLength : id < f.scopes.length := (List.getElem?_eq_some_iff.1 hScope).1
  have hOutside : f.scopes[outside]? = some (f.scopes.get ⟨outside, by omega⟩) :=
    List.getElem?_eq_getElem (by omega)
  have hInner : 0 < inner f.scopes outside := inner_pos_iff.2 ⟨id, s, hScope, hCount, hParent⟩
  rw [Live, h.countAt_eq hOutside, references]
  omega

/-- **A scope is live if and only if a handle leads to it.** A live scope has a handle or
a live scope inside it, which is younger, so the induction is on what is left above. -/
theorem live_iff (h : f.Sound) : f.Live id ↔
    ∃ handle start, f.target? handle = some start ∧ Relation.ReflTransGen f.Around start id := by
  constructor
  · intro hLive
    obtain ⟨n, hAge⟩ : ∃ n, f.scopes.length - id = n := ⟨_, rfl⟩
    induction n using Nat.strongRecOn generalizing id with
    | ind n ih =>
        obtain ⟨s, hScope, hCount⟩ := live_iff_exists.1 hLive
        have hLength : id < f.scopes.length := (List.getElem?_eq_some_iff.1 hScope).1
        have hReferences := h.count id s hScope
        simp only [reduceCtorEq, if_false, Nat.add_zero] at hReferences
        rcases Nat.eq_zero_or_pos (f.handles.count (some id)) with hNone | hHandle
        · have hInner : 0 < inner f.scopes id := by omega
          obtain ⟨k, inside, hInside, hInsideLive, hParent⟩ := inner_pos_iff.1 hInner
          have hYounger : id < k := h.layered k inside id hInside hParent
          obtain ⟨handle, start, hTarget, hWalk⟩ :=
            ih (f.scopes.length - k) (by omega) (live_iff_exists.2 ⟨inside, hInside, hInsideLive⟩) rfl
          exact ⟨handle, start, hTarget, hWalk.tail ⟨inside, hInside, hParent⟩⟩
        · obtain ⟨handle, hTarget⟩ := List.getElem?_of_mem (List.count_pos_iff.1 hHandle)
          exact ⟨handle, id, target?_eq_some_iff.2 hTarget, .refl⟩
  · rintro ⟨handle, start, hTarget, hWalk⟩
    induction hWalk with
    | refl => exact h.live_of_target hTarget
    | tail _ hAround ih => exact h.live_of_around ih hAround

theorem live_of_mem_lineage (h : f.Sound) (hLive : f.Live id) (hChain : Lineage f.scopes id chain) :
    ∀ k ∈ chain, f.Live k := by
  induction hChain with
  | outermost _ _ =>
      intro k hk
      rwa [List.mem_singleton.1 hk]
  | inside hScope hParent _ ih =>
      exact List.forall_mem_cons.2 ⟨hLive, ih (h.live_of_around hLive ⟨_, hScope, hParent⟩)⟩

/-- On a walk that meets live scopes only, the counts tell which scopes are released. -/
theorem freed_eq (h : f.Sound) (hLive : ∀ k ∈ chain, f.Live k) :
    freed f.scopes chain = f.released chain := by
  rw [freed, released]
  induction chain with
  | nil => rfl
  | cons k outer ih =>
      obtain ⟨hFirst, hOuter⟩ := List.forall_mem_cons.1 hLive
      obtain ⟨s, hScope, -⟩ := live_iff_exists.1 hFirst
      have hCount : 0 < f.references k := h.countAt_eq hScope ▸ hFirst
      have hSame : f.references k ≤ 1 ↔ f.references k = 1 := by omega
      simp only [List.takeWhile_cons, h.countAt_eq hScope, hSame, ih hOuter]

/-- A drop takes one reference from each scope that it frees and from the next one outwards. -/
theorem getElem?_drop (h : f.Sound) (hTarget : f.target? handle = some id)
    (hChain : Lineage f.scopes id chain) (k : Nat) :
    (f.drop handle).scopes[k]? = (f.scopes[k]?).map fun s =>
      { s with count := s.count - if k ∈ lowered f.scopes chain then 1 else 0 } := by
  have hRelease : (f.drop handle).scopes = release f.scopes id := by
    rw [Forest.drop, hTarget]
  rw [hRelease]
  exact hChain.getElem?_release h.layered k

theorem countAt_drop (h : f.Sound) (hTarget : f.target? handle = some id)
    (hChain : Lineage f.scopes id chain) (k : Nat) :
    countAt (f.drop handle).scopes k =
      countAt f.scopes k - if k ∈ lowered f.scopes chain then 1 else 0 := by
  rw [countAt, countAt, h.getElem?_drop hTarget hChain]
  cases f.scopes[k]? <;> simp

/-- The scopes that a drop frees die, and no other scope does. -/
theorem live_drop_iff (h : f.Sound) (hTarget : f.target? handle = some id)
    (hChain : Lineage f.scopes id chain) (k : Nat) :
    (f.drop handle).Live k ↔ f.Live k ∧ k ∉ freed f.scopes chain := by
  rw [Live, h.countAt_drop hTarget hChain, Live]
  by_cases hFreed : k ∈ freed f.scopes chain
  · have hLast : countAt f.scopes k ≤ 1 := by simpa using List.mem_takeWhile_imp hFreed
    have hLowered := mem_lowered_of_mem_freed hFreed
    simp only [hFreed, hLowered, if_true, not_true_eq_false, and_false, iff_false]
    omega
  · by_cases hLowered : k ∈ lowered f.scopes chain
    · have hMore := one_lt_of_mem_lowered hLowered hFreed
      simp only [hFreed, hLowered, if_true, not_false_eq_true, and_true]
      omega
    · simp only [hFreed, hLowered, if_false, not_false_eq_true, and_true, Nat.sub_zero]

end Sound

/-- The counts of a forest are the numbers of references, the live scopes are those that handles
lead to, and dropping a handle frees what nothing else refers to. -/
structure ReferenceCounted (f : Forest) : Prop where
  /-- A handle shows how many handles and live inner scopes refer to its scope. -/
  handleCount : ∀ handle id, f.target? handle = some id → f.handleCount handle = f.references id
  /-- So does every live scope, also one without a handle. -/
  count : ∀ id, f.Live id → countAt f.scopes id = f.references id
  /-- Live are the scopes that some handle leads to. -/
  live : ∀ id, f.Live id ↔
    ∃ handle start, f.target? handle = some start ∧ Relation.ReflTransGen f.Around start id
  /-- The scope around a scope is older. -/
  older : ∀ inside outside, f.Around inside outside → outside < inside
  /-- From every handle the walk outwards ends, it meets live scopes only, and it is the walk
  of look-ups and assignments. -/
  walk : ∀ handle id, f.target? handle = some id →
    ∃ chain, Lineage f.scopes id chain ∧ (∀ k ∈ chain, f.Live k) ∧
      (∀ name, f.lookup? handle name = chain.findSome? (bindingAt f.scopes name)) ∧
      ∀ name v, f.assign? handle name v =
        (chain.find? fun k => (bindingAt f.scopes name k).isSome).map (f.write name v)
  /-- A dropped handle releases the scopes at the start of its walk that nothing else refers
  to. They and the next scope lose a reference, and no scope changes in another way. -/
  drop : ∀ handle id chain, f.target? handle = some id → Lineage f.scopes id chain →
    (∀ k, (f.drop handle).Live k ↔ f.Live k ∧ k ∉ f.released chain) ∧
    ∀ k : Nat, (f.drop handle).scopes[k]? = (f.scopes[k]?).map fun s =>
      { s with count := s.count - if k ∈ chain.take ((f.released chain).length + 1) then 1 else 0 }

/--
**Scopes are counted correctly.** After every sequence of operations the counts are the
numbers of references, live are the scopes that handles lead to, and dropping a handle
frees the scopes that nothing else refers to.
-/
theorem referenceCounted_after (ops : List Operation) : (after ops).ReferenceCounted := by
  have h : (after ops).Sound := sound_after ops
  constructor
  case handleCount =>
    intro handle id hTarget
    obtain ⟨s, hScope, -⟩ := h.exists_of_target hTarget
    rw [handleCount, hTarget]
    exact h.countAt_eq hScope
  case count =>
    intro id hLive
    obtain ⟨s, hScope, -⟩ := live_iff_exists.1 hLive
    exact h.countAt_eq hScope
  case live =>
    intro id
    exact h.live_iff
  case older =>
    rintro inside outside ⟨s, hScope, hParent⟩
    exact h.layered inside s outside hScope hParent
  case walk =>
    intro handle id hTarget
    obtain ⟨chain, hChain⟩ := h.layered.exists_lineage (h.lt_of_target hTarget)
    exact ⟨chain, hChain, h.live_of_mem_lineage (h.live_of_target hTarget) hChain,
      hChain.lookup?_eq h.layered hTarget, hChain.assign?_eq h.layered hTarget⟩
  case drop =>
    intro handle id chain hTarget hChain
    have hReleased := h.freed_eq (h.live_of_mem_lineage (h.live_of_target hTarget) hChain)
    rw [← hReleased]
    exact ⟨h.live_drop_iff hTarget hChain, h.getElem?_drop hTarget hChain⟩

end TinyScript.Forest
