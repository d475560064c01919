import TinyScript.Proofs.Scope.Aliasing
import TinyScript.Proofs.Scope.Stacks

/-!
# Environments held by handles

An environment can be held in a forest of shared scopes: as a stack of handles to the scopes
that are open, the current one first. Opening a scope puts a scope inside the current one and
keeps its handle, closing it drops the handle. Names are then looked up and assigned through
the handle of the current scope, along the links between the scopes; the other handles of the
stack are not asked. So there are two structures to keep in step, the stack and the links, and
a third handle, to the scope at the bottom, for the case that the stack is empty.

They stay in step: the walk outwards from the current scope meets exactly the scopes that the
handles of the stack lead to, in this order (`HandleStack.Walks`). Closing a scope drops a
handle, and a drop changes no scope but its count.

## Main results

* `HandleStack.Shows.set`, `HandleStack.Shows.push`, `HandleStack.Shows.pop`: what each operation
  does to the maps along the walk.
* `HandleStack.simulation`: a stack of handles is a stack of maps.
* `Scoping.answers_eq_answers_mapStack`: environments, stacks of handles and stacks of maps.
-/

namespace TinyScript

/-! ## Forests that go on -/

namespace Forest

variable {f : Forest} {handle id : Nat} {chain : List Nat} {scopes scopes' : List SharedScope}

/-- The names of a scope as a map. -/
def mapAt (scopes : List SharedScope) (id : Nat) : NameMap :=
  fun name => bindingAt scopes name id

theorem mapAt_set (hId : id < scopes.length) (name : String) (b : Binding) (k : Nat) :
    mapAt (scopes.modify id fun s => { s with frame := s.frame.set name b }) k =
      if id = k then Function.update (mapAt scopes k) name (some b) else mapAt scopes k := by
  funext other
  rw [mapAt, bindingAt_set hId]
  by_cases hk : id = k
  · rw [if_pos hk, Function.update_apply]
    simp [hk, mapAt]
  · have hOther : ¬(other = name ∧ k = id) := fun hBoth => hk hBoth.2.symm
    rw [if_neg hk, if_neg hOther]
    rfl

/-- Every scope is still there, with the same names and the same scope around it; only its
count may differ. -/
def Continues (scopes scopes' : List SharedScope) : Prop :=
  ∀ (k : Nat) (s : SharedScope), scopes[k]? = some s → ∃ count, scopes'[k]? = some { s with count }

namespace Continues

theorem lineage (h : Continues scopes scopes') (hLineage : Lineage scopes id chain) :
    Lineage scopes' id chain := by
  apply hLineage.mono
  intro k s hk
  obtain ⟨count, hk'⟩ := h k s hk
  exact ⟨_, hk', rfl⟩

theorem map_mapAt (h : Continues scopes scopes') (hThere : ∀ k ∈ chain, k < scopes.length) :
    chain.map (mapAt scopes') = chain.map (mapAt scopes) := by
  apply List.map_congr_left
  intro k hk
  obtain ⟨count, hk'⟩ := h k _ (List.getElem?_eq_getElem (hThere k hk))
  funext name
  rw [mapAt, mapAt, bindingAt, bindingAt, hk', List.getElem?_eq_getElem (hThere k hk)]
  rfl

end Continues

theorem continues_retain (scopes : List SharedScope) (id : Nat) (new : SharedScope) :
    Continues scopes (retain scopes id ++ [new]) := by
  intro k s hk
  have hLt : k < (retain scopes id).length := by
    rw [retain, List.length_modify]
    exact (List.getElem?_eq_some_iff.1 hk).1
  rw [List.getElem?_append_left hLt, retain, List.getElem?_modify, hk]
  by_cases hId : id = k
  · exact ⟨s.count + 1, by simp [hId]⟩
  · exact ⟨s.count, by simp [hId]⟩

theorem continues_drop (h : f.Sound) (hTarget : f.target? handle = some id) :
    Continues f.scopes (f.drop handle).scopes := by
  obtain ⟨chain, hChain⟩ := h.layered.exists_lineage (h.lt_of_target hTarget)
  intro k s hk
  rw [h.getElem?_drop hTarget hChain, hk]
  exact ⟨_, rfl⟩

theorem target?_drop_of_ne (f : Forest) {k : Nat} (hk : k ≠ handle) :
    (f.drop handle).target? k = f.target? k := by
  unfold drop
  split
  · show ((f.handles.set handle none)[k]?).join = (f.handles[k]?).join
    rw [List.getElem?_set_ne hk.symm]
  · rfl

/-- A new scope is the youngest one, and so is its handle. -/
theorem newChild_eq (hTarget : f.target? handle = some id) :
    f.newChild handle = ⟨retain f.scopes id ++ [⟨.empty, some id, 1⟩],
      f.handles ++ [some f.scopes.length]⟩ := by
  have hLength : (retain f.scopes id).length = f.scopes.length := List.length_modify ..
  rw [newChild, hTarget, ← hLength]
  rfl

theorem getElem?_newScope (scopes : List SharedScope) (id : Nat) (new : SharedScope) :
    (retain scopes id ++ [new])[scopes.length]? = some new := by
  have hLength : (retain scopes id).length = scopes.length := List.length_modify ..
  rw [← hLength]
  exact List.getElem?_concat_length

end Forest

/-! ## Stacks of handles -/

open Forest (Lineage bindingAt mapAt)

/-- Handles to the open scopes, the current one first, and one to the outermost scope. -/
structure HandleStack where
  forest : Forest
  stack : List Nat
  /-- Stands in for the current scope where no handle is on the stack. -/
  global : Nat

namespace HandleStack

/-- The handle to the current scope. -/
def current (l : HandleStack) : Nat :=
  l.stack.headD l.global

instance : Scoping HandleStack where
  new := ⟨Forest.empty.newRoot.clone 0, [1], 0⟩
  define l name b := { l with forest := l.forest.define l.current name b }
  get? l name := l.forest.lookup? l.current name
  assign? l name v := (l.forest.assign? l.current name v).map fun forest => { l with forest }
  push l := { l with
    forest := l.forest.newChild l.current, stack := l.forest.handles.length :: l.stack }
  pop l :=
    match l.stack with
    | top :: next :: rest => { l with forest := l.forest.drop top, stack := next :: rest }
    | _ => l
  depth l := l.stack.length

/-- The walk outwards from the current scope meets the scopes of the handles on the stack. -/
structure Walks (l : HandleStack) (chain : List Nat) : Prop where
  sound : l.forest.Sound
  distinct : l.stack.Nodup
  targets : l.stack.map l.forest.target? = chain.map some
  lineage : ∃ id, Lineage l.forest.scopes id chain

/-- The scopes on the walk are the maps, one by one. -/
def Shows (l : HandleStack) (s : MapStack) : Prop :=
  ∃ chain, l.Walks chain ∧ chain.map (mapAt l.forest.scopes) = s.maps

variable {l : HandleStack} {chain : List Nat} {s : MapStack}

/-- The walk begins at the scope of the current handle. -/
theorem Walks.exists_current (h : l.Walks chain) :
    ∃ id outer, chain = id :: outer ∧ l.forest.target? l.current = some id ∧
      Lineage l.forest.scopes id chain := by
  obtain ⟨id, hLineage⟩ := h.lineage
  obtain ⟨outer, rfl⟩ := hLineage.eq_cons
  obtain ⟨top, rest, hStack, hTop, -⟩ := List.map_eq_cons_iff.1 h.targets
  refine ⟨id, outer, rfl, ?_, hLineage⟩
  rw [current, hStack]
  exact hTop

/-! ## Names -/

/-- The stack after a name got a binding in a scope. -/
def set (l : HandleStack) (id : Nat) (name : String) (b : Binding) : HandleStack :=
  let scopes := l.forest.scopes.modify id fun s => { s with frame := s.frame.set name b }
  { l with forest := { l.forest with scopes } }

/-- Binding a name in the scope at some place of the walk changes the map at that place. -/
theorem Shows.set (h : l.Walks chain) (hMaps : chain.map (mapAt l.forest.scopes) = s.maps)
    {i id : Nat} (hi : chain[i]? = some id) (name : String) (b : Binding) :
    (l.set id name b).Shows (s.modify (Function.update · name (some b)) i) := by
  obtain ⟨first, hLineage⟩ := h.lineage
  have hId : id < l.forest.scopes.length := hLineage.lt_of_mem id (List.mem_of_getElem? hi)
  have hWalks : (l.set id name b).Walks chain := by
    refine ⟨h.sound.reframe id (·.set name b), h.distinct, h.targets, first, hLineage.congr ?_⟩
    apply Forest.parent_modify
    intro s
    rfl
  refine ⟨chain, hWalks, ?_⟩
  rw [MapStack.maps_modify, ← hMaps]
  apply List.ext_getElem?
  intro j
  rw [List.getElem?_map, List.getElem?_modify, List.getElem?_map]
  cases hj : chain[j]? with
  | none => rfl
  | some k =>
      have hLt : i < chain.length := (List.getElem?_eq_some_iff.1 hi).1
      -- A walk meets no scope twice, so only one of the maps is that of the scope.
      have hPlace : id = k ↔ i = j := by
        rw [← List.getElem?_inj hLt (hLineage.nodup h.sound.layered), hi, hj, Option.some.injEq]
      show some (mapAt (l.forest.scopes.modify id _) k) = some _
      rw [Forest.mapAt_set hId]
      simp only [hPlace]

theorem Shows.define (h : l.Shows s) (name : String) (b : Binding) :
    Shows (Scoping.define l name b) (Scoping.define s name b) := by
  obtain ⟨chain, hWalks, hMaps⟩ := h
  obtain ⟨id, outer, rfl, hTarget, -⟩ := hWalks.exists_current
  have hDefine : Scoping.define l name b = l.set id name b := by
    show { l with forest := l.forest.define l.current name b } = l.set id name b
    rw [Forest.define, hTarget]
    rfl
  have hFirst : (id :: outer)[0]? = some id := rfl
  rw [hDefine]
  exact Shows.set hWalks hMaps hFirst name b

/-- The position of the first map with the name is the place of the first scope with it. -/
theorem holder?_eq (hMaps : chain.map (mapAt l.forest.scopes) = s.maps) (name : String) :
    s.holder? name = chain.findIdx? fun k => (bindingAt l.forest.scopes name k).isSome := by
  rw [MapStack.holder?, ← hMaps, List.findIdx?_map]
  rfl

theorem Shows.assign? (h : l.Shows s) (name : String) (v : Value) :
    Option.Rel Shows (Scoping.assign? l name v) (Scoping.assign? s name v) := by
  obtain ⟨chain, hWalks, hMaps⟩ := h
  obtain ⟨id, outer, -, hTarget, hLineage⟩ := hWalks.exists_current
  have hLeft : Scoping.assign? l name v =
      ((s.holder? name).bind (chain[·]?)).map fun owner => l.set owner name (.initialized v) := by
    show (l.forest.assign? l.current name v).map _ = _
    rw [hLineage.assign?_eq hWalks.sound.layered hTarget, List.find?_eq_bind_findIdx?_getElem?,
      ← holder?_eq hMaps, Option.map_map]
    rfl
  have hRight : Scoping.assign? s name v =
      (s.holder? name).map (s.modify (Function.update · name (some (.initialized v)))) :=
    rfl
  rw [hLeft, hRight]
  cases hHolder : s.holder? name with
  | none => exact .none
  | some i =>
      rw [holder?_eq hMaps] at hHolder
      obtain ⟨hLt, -⟩ := List.findIdx?_eq_some_iff_getElem.1 hHolder
      have hOwner : chain[i]? = some chain[i] := List.getElem?_eq_getElem hLt
      rw [Option.bind_some, hOwner]
      exact .some (Shows.set hWalks hMaps hOwner name (.initialized v))

/-! ## Scopes -/

theorem Walks.lt_of_mem_stack (h : l.Walks chain) : ∀ k ∈ l.stack, k < l.forest.handles.length := by
  intro k hk
  have hMem : l.forest.target? k ∈ chain.map some := by
    rw [← h.targets]
    exact List.mem_map_of_mem hk
  obtain ⟨id, -, hTarget⟩ := List.mem_map.1 hMem
  exact (List.getElem?_eq_some_iff.1 (Forest.target?_eq_some_iff.1 hTarget.symm)).1

/-- A new scope comes to stand at the front of the walk. -/
theorem Walks.push (h : l.Walks chain) :
    Walks (Scoping.push l) (l.forest.scopes.length :: chain) := by
  obtain ⟨id, outer, -, hTarget, hLineage⟩ := h.exists_current
  have hForest : (Scoping.push l).forest = _ := Forest.newChild_eq hTarget
  constructor
  case sound => exact h.sound.newChild l.current
  case distinct =>
    refine List.nodup_cons.2 ⟨fun hMem => ?_, h.distinct⟩
    exact Nat.lt_irrefl _ (h.lt_of_mem_stack _ hMem)
  case targets =>
    rw [hForest, List.map_cons, ← h.targets]
    show _ :: l.stack.map _ = _
    congr 1
    · show ((l.forest.handles ++ [some l.forest.scopes.length])[l.forest.handles.length]?).join = _
      rw [List.getElem?_concat_length]
      rfl
    · apply List.map_congr_left
      intro k hk
      show ((l.forest.handles ++ _)[k]?).join = (l.forest.handles[k]?).join
      rw [List.getElem?_append_left (h.lt_of_mem_stack k hk)]
  case lineage =>
    rw [hForest]
    have hContinues := Forest.continues_retain l.forest.scopes id ⟨.empty, some id, 1⟩
    exact ⟨_, .inside (Forest.getElem?_newScope _ id _) rfl (hContinues.lineage hLineage)⟩

theorem Shows.push (h : l.Shows s) : Shows (Scoping.push l) (Scoping.push s) := by
  obtain ⟨chain, hWalks, hMaps⟩ := h
  obtain ⟨id, outer, -, hTarget, hLineage⟩ := hWalks.exists_current
  have hForest : (Scoping.push l).forest = _ := Forest.newChild_eq hTarget
  have hContinues := Forest.continues_retain l.forest.scopes id ⟨.empty, some id, 1⟩
  refine ⟨_, hWalks.push, ?_⟩
  rw [hForest, List.map_cons, hContinues.map_mapAt hLineage.lt_of_mem, hMaps]
  show _ :: s.maps = (fun _ => none) :: s.maps
  congr 1
  funext name
  rw [mapAt, bindingAt, Forest.getElem?_newScope]
  rfl

/-- Without its first handle, the stack leads to the walk without its first scope. -/
theorem Walks.drop {forest : Forest} {top next global id₁ id₂ : Nat} {rest outer : List Nat}
    (h : Walks ⟨forest, top :: next :: rest, global⟩ (id₁ :: id₂ :: outer)) :
    Walks ⟨forest.drop top, next :: rest, global⟩ (id₂ :: outer) ∧
      Forest.Continues forest.scopes (forest.drop top).scopes := by
  obtain ⟨hTop, hTargets⟩ := List.cons_eq_cons.1 h.targets
  obtain ⟨hFresh, hDistinct⟩ := List.nodup_cons.1 h.distinct
  obtain ⟨_, hLineage⟩ := h.lineage
  have hContinues := Forest.continues_drop h.sound hTop
  refine ⟨⟨h.sound.drop top, hDistinct, ?_, ?_⟩, hContinues⟩
  · rw [← hTargets]
    apply List.map_congr_left
    intro k hk
    -- The dropped handle stands on the stack only once.
    apply Forest.target?_drop_of_ne
    rintro rfl
    exact hFresh hk
  · cases hLineage with
    | @inside _ parent _ _ _ _ hOuter => exact ⟨parent, hContinues.lineage hOuter⟩

theorem Shows.pop (h : l.Shows s) : Shows (Scoping.pop l) (Scoping.pop s) := by
  obtain ⟨chain, hWalks, hMaps⟩ := h
  obtain ⟨forest, stack, global⟩ := l
  obtain ⟨top, below⟩ := s
  obtain ⟨id₁, outer, rfl, -, hLineage⟩ := hWalks.exists_current
  obtain ⟨handle, rest, rfl, -, hRest⟩ := List.map_eq_cons_iff.1 hWalks.targets
  obtain ⟨-, hBelow⟩ := List.cons_eq_cons.1 hMaps
  subst hBelow
  cases outer with
  | nil =>
      obtain rfl := List.map_eq_nil_iff.1 hRest
      exact ⟨_, hWalks, hMaps⟩
  | cons id₂ outer =>
      obtain ⟨next, rest, rfl, -, -⟩ := List.map_eq_cons_iff.1 hRest
      obtain ⟨hDropped, hContinues⟩ := hWalks.drop
      refine ⟨id₂ :: outer, hDropped, ?_⟩
      apply hContinues.map_mapAt
      intro k hk
      exact hLineage.lt_of_mem k (List.mem_cons_of_mem _ hk)

theorem shows_new : Shows Scoping.new Scoping.new := by
  have hSound : (Forest.after [.newRoot, .clone 0]).Sound := Forest.sound_after _
  have hDistinct : [1].Nodup := by simp
  exact ⟨[0], ⟨hSound, hDistinct, rfl, 0, .outermost rfl rfl⟩, rfl⟩

/-- A stack of handles is a stack of maps. -/
theorem simulation : Scoping.Simulation Shows where
  new := shows_new
  depth {l s} h := by
    obtain ⟨chain, hWalks, hMaps⟩ := h
    show l.stack.length = s.maps.length
    have hStack := congrArg List.length hWalks.targets
    have hLengths := congrArg List.length hMaps
    simp only [List.length_map] at hStack hLengths
    omega
  get? {l s} h name := by
    obtain ⟨chain, hWalks, hMaps⟩ := h
    obtain ⟨id, outer, -, hTarget, hLineage⟩ := hWalks.exists_current
    rw [MapStack.get?_eq, ← hMaps, List.findSome?_map]
    exact hLineage.lookup?_eq hWalks.sound.layered hTarget name
  define h := h.define
  assign? h := h.assign?
  push h := h.push
  pop h := h.pop

end HandleStack

/--
**Environments are stacks of maps.** For every sequence of operations on a new environment,
all bindings that are looked up, all results of assignments and all depths are those of a
stack of maps: a name is bound in the topmost map, it is looked up and assigned in the topmost
map that contains it, an assignment changes one entry or, if no map contains the name, nothing,
and the last map is never taken away. The same holds of an environment that is held by handles
to linked scopes.
-/
theorem Scoping.answers_eq_answers_mapStack (ops : List Scoping.Operation) :
    Scoping.answers Environment ops = Scoping.answers MapStack ops ∧
      Scoping.answers HandleStack ops = Scoping.answers MapStack ops :=
  ⟨Environment.simulation.answers_eq ops, HandleStack.simulation.answers_eq ops⟩

end TinyScript
