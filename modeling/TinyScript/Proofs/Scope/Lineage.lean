import Mathlib.Data.List.Basic
import TinyScript.Scope.Forest

/-!
# Walks outwards

A look-up, an assignment and a release all walk from a scope outwards, and the code of
each guards its steps by a comparison of ages, so that it ends in any list of scopes. In
a forest the guards never act: every scope is younger than the scope around it. Here a
walk is first described without guards, as the list of the scopes that it meets, and then
each operation is described by that list.

## Main results

* `Layered.exists_lineage`: from every scope there is a walk, and it ends.
* `Lineage.owner?_eq`, `Lineage.lookup?_eq`, `Lineage.assign?_eq`: a name belongs to the
  first scope of the walk that binds it.
* `Lineage.getElem?_release`: letting go of a scope takes one reference from the scopes of
  the walk, up to and including the first one with another reference.
-/

namespace TinyScript.Forest

/-- Every scope is younger than the scope around it. -/
def Layered (scopes : List SharedScope) : Prop :=
  ∀ (id : Nat) (s : SharedScope) (parent : Nat), scopes[id]? = some s → s.parent = some parent →
    parent < id

/-- `Lineage scopes id chain`: the scope `id`, the scope around it and so on are those of
`chain`, and there is nothing around the last of them. -/
inductive Lineage (scopes : List SharedScope) : Nat → List Nat → Prop
  | outermost {id : Nat} {s : SharedScope} (h : scopes[id]? = some s) (hParent : s.parent = none) :
    Lineage scopes id [id]
  | inside {id parent : Nat} {s : SharedScope} {chain : List Nat} (h : scopes[id]? = some s)
    (hParent : s.parent = some parent) (outer : Lineage scopes parent chain) :
    Lineage scopes id (id :: chain)

variable {scopes scopes' : List SharedScope} {id : Nat} {chain : List Nat}

/-- Ages go down along a walk, so it ends. -/
theorem Layered.exists_lineage (h : Layered scopes) (hId : id < scopes.length) :
    ∃ chain, Lineage scopes id chain := by
  induction id using Nat.strongRecOn with
  | ind id ih =>
      have hScope : scopes[id]? = some scopes[id] := List.getElem?_eq_getElem hId
      cases hParent : scopes[id].parent with
      | none => exact ⟨[id], .outermost hScope hParent⟩
      | some parent =>
          have hOlder : parent < id := h id _ parent hScope hParent
          obtain ⟨chain, hOuter⟩ := ih parent hOlder (by omega)
          exact ⟨id :: chain, .inside hScope hParent hOuter⟩

namespace Lineage

/-- No scope of a walk is younger than the first. -/
theorem le_of_mem (hLayered : Layered scopes) (h : Lineage scopes id chain) :
    ∀ k ∈ chain, k ≤ id := by
  induction h with
  | outermost _ _ =>
      intro k hk
      exact Nat.le_of_eq (List.mem_singleton.1 hk)
  | @inside id parent s chain h hParent _ ih =>
      have hOlder : parent < id := hLayered id s parent h hParent
      refine List.forall_mem_cons.2 ⟨Nat.le_refl id, ?_⟩
      intro k hk
      have hLe := ih k hk
      omega

/-- A walk begins at its own scope. -/
theorem eq_cons (h : Lineage scopes id chain) : ∃ outer, chain = id :: outer := by
  cases h with
  | outermost _ _ => exact ⟨[], rfl⟩
  | @inside _ _ _ outer _ _ _ => exact ⟨outer, rfl⟩

/-- Ages go down along a walk, so it meets no scope twice. -/
theorem nodup (hLayered : Layered scopes) (h : Lineage scopes id chain) : chain.Nodup := by
  induction h with
  | outermost _ _ => simp
  | @inside id parent s chain h hParent hOuter ih =>
      have hOlder : parent < id := hLayered id s parent h hParent
      refine List.nodup_cons.2 ⟨fun hMem => ?_, ih⟩
      have hLe := hOuter.le_of_mem hLayered id hMem
      omega

/-- A walk meets only scopes that are there. -/
theorem lt_of_mem (h : Lineage scopes id chain) : ∀ k ∈ chain, k < scopes.length := by
  induction h with
  | outermost h _ =>
      intro k hk
      rw [List.mem_singleton.1 hk]
      exact (List.getElem?_eq_some_iff.1 h).1
  | inside h _ _ ih => exact List.forall_mem_cons.2 ⟨(List.getElem?_eq_some_iff.1 h).1, ih⟩

/-- A walk goes the same way where its scopes are still there and have the same links. -/
theorem mono
    (hLink : ∀ (k : Nat) (s : SharedScope), scopes[k]? = some s →
      ∃ s', scopes'[k]? = some s' ∧ s'.parent = s.parent)
    (h : Lineage scopes id chain) : Lineage scopes' id chain := by
  induction h with
  | outermost h hParent =>
      obtain ⟨s', hs', hSameParent⟩ := hLink _ _ h
      exact .outermost hs' (hSameParent.trans hParent)
  | inside h hParent _ ih =>
      obtain ⟨s', hs', hSameParent⟩ := hLink _ _ h
      exact .inside hs' (hSameParent.trans hParent) ih

/-- A walk follows nothing but the links between scopes. -/
theorem congr
    (hSame : ∀ k : Nat, (scopes'[k]?).map SharedScope.parent = (scopes[k]?).map SharedScope.parent)
    (h : Lineage scopes id chain) : Lineage scopes' id chain := by
  apply h.mono
  intro k s hk
  have hMap := hSame k
  rw [hk] at hMap
  exact Option.map_eq_some_iff.1 hMap

end Lineage

/-! ## Names -/

/-- What a scope itself binds a name to. -/
def bindingAt (scopes : List SharedScope) (name : String) (id : Nat) : Option Binding :=
  (scopes[id]?).bind (·.frame.get? name)

/-- The forest after a name got a value in a scope. -/
def write (f : Forest) (name : String) (v : Value) (id : Nat) : Forest :=
  { f with scopes := f.scopes.modify id fun s =>
      { s with frame := s.frame.set name (.initialized v) } }

namespace Lineage

/-- A name belongs to the first scope of the walk that binds it. -/
theorem owner?_eq (hLayered : Layered scopes) (h : Lineage scopes id chain) (name : String) :
    owner? scopes id name = chain.find? fun k => (bindingAt scopes name k).isSome := by
  induction h with
  | outermost h hParent =>
      rw [owner?, List.find?_cons]
      simp only [h, hParent, bindingAt, Option.bind_some, Frame.binds, List.find?_nil]
      split <;> simp [*]
  | @inside id parent s chain h hParent _ ih =>
      have hOlder : parent < id := hLayered id s parent h hParent
      rw [owner?, List.find?_cons]
      simp only [h, hParent, hOlder, if_true, ih, bindingAt, Option.bind_some, Frame.binds]
      split <;> simp [*]

/-- A look-up gives the first binding that the walk meets. -/
theorem lookup?_eq {f : Forest} {handle : Nat} (hLayered : Layered f.scopes)
    (hTarget : f.target? handle = some id) (h : Lineage f.scopes id chain) (name : String) :
    f.lookup? handle name = chain.findSome? (bindingAt f.scopes name) := by
  have hOwner : f.lookup? handle name =
      (f.target? handle).bind fun id => (owner? f.scopes id name).bind (bindingAt f.scopes name) :=
    rfl
  rw [hOwner, hTarget, Option.bind_some, h.owner?_eq hLayered]
  clear hLayered hTarget h hOwner
  induction chain with
  | nil => rfl
  | cons k chain ih =>
      rw [List.find?_cons, List.findSome?_cons]
      cases hBinding : bindingAt f.scopes name k with
      | none => simpa using ih
      | some b => simpa using hBinding

/-- An assignment writes to the first scope of the walk that binds the name. -/
theorem assign?_eq {f : Forest} {handle : Nat} (hLayered : Layered f.scopes)
    (hTarget : f.target? handle = some id) (h : Lineage f.scopes id chain) (name : String)
    (v : Value) :
    f.assign? handle name v =
      (chain.find? fun k => (bindingAt f.scopes name k).isSome).map (f.write name v) := by
  have hOwner : f.assign? handle name v = (f.target? handle).bind fun id =>
      (owner? f.scopes id name).bind fun owner => some (f.write name v owner) :=
    rfl
  rw [hOwner, hTarget, Option.bind_some, h.owner?_eq hLayered, Option.map_eq_bind]
  rfl

end Lineage

/-! ## Releases -/

/-- The scopes after one of them has lost a reference. -/
def letGo (scopes : List SharedScope) (id : Nat) : List SharedScope :=
  scopes.modify id fun s => { s with count := s.count - 1 }

theorem getElem?_letGo (scopes : List SharedScope) (id k : Nat) :
    (letGo scopes id)[k]? =
      (scopes[k]?).map fun s => { s with count := s.count - if k = id then 1 else 0 } := by
  rw [letGo, List.getElem?_modify]
  by_cases hk : k = id
  · simp [hk]
  · simp [hk, Ne.symm hk]

/-- Changing what a scope holds leaves the links between scopes as they were. -/
theorem parent_modify {g : SharedScope → SharedScope} (h : ∀ s, (g s).parent = s.parent)
    (scopes : List SharedScope) (id k : Nat) :
    ((scopes.modify id g)[k]?).map SharedScope.parent = (scopes[k]?).map SharedScope.parent := by
  rw [List.getElem?_modify]
  cases scopes[k]? with
  | none => rfl
  | some s => by_cases hk : id = k <;> simp [hk, h]

theorem parent_letGo (scopes : List SharedScope) (id k : Nat) :
    ((letGo scopes id)[k]?).map SharedScope.parent = (scopes[k]?).map SharedScope.parent := by
  unfold letGo
  apply parent_modify
  intro s
  rfl

theorem Layered.congr (h : Layered scopes)
    (hSame : ∀ k : Nat, (scopes'[k]?).map SharedScope.parent = (scopes[k]?).map SharedScope.parent) :
    Layered scopes' := by
  intro id s' parent hs' hParent
  have hMap := hSame id
  rw [hs'] at hMap
  obtain ⟨s, hs, hSameParent⟩ := Option.map_eq_some_iff.1 hMap.symm
  exact h id s parent hs (hSameParent.trans hParent)

theorem set_eq_letGo {s : SharedScope} (h : scopes[id]? = some s) :
    scopes.set id { s with count := s.count - 1 } = letGo scopes id := by
  rw [letGo, List.modify_eq_set_getElem?, h]
  rfl

/-- A scope that is still referred to, or that has nothing around it, passes nothing on. -/
theorem release_of_stays {s : SharedScope} (h : scopes[id]? = some s)
    (hStays : 1 < s.count ∨ s.parent = none) : release scopes id = letGo scopes id := by
  rw [release, h]
  simp only
  cases hParent : s.parent with
  | none => rw [← set_eq_letGo h, hParent]
  | some parent =>
      have hMore : 1 < s.count := by simpa [hParent] using hStays
      have hGuard : ¬(s.count ≤ 1 ∧ parent < id) := by omega
      simp only [hGuard, if_false]
      rw [← set_eq_letGo h, hParent]

/-- The last reference to a scope takes with it the reference to the scope around it. -/
theorem release_of_last {s : SharedScope} {parent : Nat} (h : scopes[id]? = some s)
    (hLast : s.count ≤ 1) (hParent : s.parent = some parent) (hOlder : parent < id) :
    release scopes id = release (letGo scopes id) parent := by
  rw [release, h]
  simp only [hParent, hLast, hOlder, and_self, if_true]
  rw [← set_eq_letGo h, hParent]

/-- How often a scope is referred to, by its own account. -/
def countAt (scopes : List SharedScope) (id : Nat) : Nat :=
  ((scopes[id]?).map SharedScope.count).getD 0

/-- The scopes at the start of a walk that have no other reference than the step to them. -/
def freed (scopes : List SharedScope) (chain : List Nat) : List Nat :=
  chain.takeWhile fun k => countAt scopes k ≤ 1

/-- The scopes of a walk that lose a reference: those that are freed, and the next one. -/
def lowered (scopes : List SharedScope) (chain : List Nat) : List Nat :=
  chain.take ((freed scopes chain).length + 1)

/-- Where the first scope of a walk has another reference, no other loses one. -/
theorem lowered_of_lt {outer : List Nat} (h : 1 < countAt scopes id) :
    lowered scopes (id :: outer) = [id] := by
  have hFreed : freed scopes (id :: outer) = [] := by
    rw [freed, List.takeWhile_cons_of_neg]
    simpa using h
  simp [lowered, hFreed]

theorem lowered_of_le {outer : List Nat} (h : countAt scopes id ≤ 1) :
    lowered scopes (id :: outer) = id :: lowered scopes outer := by
  have hFreed : freed scopes (id :: outer) = id :: freed scopes outer := by
    rw [freed, List.takeWhile_cons_of_pos]
    · rfl
    · simpa using h
  simp [lowered, hFreed]

/-- The references that are lost along a walk hang on its own scopes only. -/
theorem lowered_congr (h : ∀ k ∈ chain, countAt scopes' k = countAt scopes k) :
    lowered scopes' chain = lowered scopes chain := by
  induction chain with
  | nil => rfl
  | cons k outer ih =>
      obtain ⟨hFirst, hOuter⟩ := List.forall_mem_cons.1 h
      rcases Nat.lt_or_ge 1 (countAt scopes k) with hMore | hLast
      · rw [lowered_of_lt hMore, lowered_of_lt (hFirst ▸ hMore)]
      · rw [lowered_of_le hLast, lowered_of_le (hFirst ▸ hLast), ih hOuter]

theorem mem_lowered_of_mem_freed {k : Nat} (h : k ∈ freed scopes chain) :
    k ∈ lowered scopes chain := by
  have hFreed : freed scopes chain = chain.take (freed scopes chain).length :=
    List.prefix_iff_eq_take.1 (List.takeWhile_prefix _)
  rw [hFreed] at h
  exact (List.take_sublist_take_left (Nat.le_succ _)).subset h

theorem one_lt_of_mem_lowered {k : Nat} (h : k ∈ lowered scopes chain)
    (hKept : k ∉ freed scopes chain) : 1 < countAt scopes k := by
  induction chain with
  | nil => cases h
  | cons first outer ih =>
      rcases Nat.lt_or_ge 1 (countAt scopes first) with hMore | hLast
      · rw [lowered_of_lt hMore] at h
        rwa [List.mem_singleton.1 h]
      · rw [lowered_of_le hLast] at h
        rw [freed, List.takeWhile_cons_of_pos (by simpa using hLast)] at hKept
        rcases List.mem_cons.1 h with rfl | hOuter
        · exact absurd List.mem_cons_self hKept
        · exact ih hOuter fun hMem => hKept (List.mem_cons_of_mem _ hMem)

/-- **What letting go of a scope does.** Along the walk from it, scopes lose one reference
each, up to and including the first one with another reference. -/
theorem Lineage.getElem?_release (hLayered : Layered scopes) (h : Lineage scopes id chain)
    (k : Nat) :
    (release scopes id)[k]? = (scopes[k]?).map fun s =>
      { s with count := s.count - if k ∈ lowered scopes chain then 1 else 0 } := by
  induction chain generalizing scopes id with
  | nil => cases h
  | cons first outer ih =>
      cases h with
      | outermost hScope hParent =>
          have hOne : lowered scopes [first] = [first] := by simp [lowered]
          rw [release_of_stays hScope (.inr hParent), getElem?_letGo, hOne]
          simp only [List.mem_singleton]
      | @inside _ parent s _ hScope hParent hOuter =>
          have hOlder : parent < first := hLayered first s parent hScope hParent
          have hCount : countAt scopes first = s.count := by simp [countAt, hScope]
          rcases Nat.lt_or_ge 1 s.count with hMore | hLast
          · rw [release_of_stays hScope (.inl hMore), getElem?_letGo, lowered_of_lt (hCount ▸ hMore)]
            simp only [List.mem_singleton]
          · -- The walk goes on, and the scopes that it still meets are not the first one.
            have hSame : ∀ j ∈ outer, j ≠ first := by
              intro j hj
              have hLe := hOuter.le_of_mem hLayered j hj
              omega
            have hLowered : lowered (letGo scopes first) outer = lowered scopes outer := by
              refine lowered_congr fun j hj => ?_
              rw [countAt, countAt, getElem?_letGo]
              simp [hSame j hj]
            have hNotMem : first ∉ lowered scopes outer := fun hMem =>
              hSame first (List.mem_of_mem_take hMem) rfl
            rw [release_of_last hScope hLast hParent hOlder,
              ih (hLayered.congr (parent_letGo scopes first)) (hOuter.congr (parent_letGo scopes first)),
              hLowered, lowered_of_le (hCount ▸ hLast), getElem?_letGo, Option.map_map]
            congr 1
            funext s'
            by_cases hk : k = first
            · simp [hk, hNotMem]
            · simp [hk]

end TinyScript.Forest
