import TinyScript.Proofs.Scope.Sharing

/-!
# Assignments through shared scopes

Handles alias each other, and walks outwards from different handles meet in the same scopes.
So an assignment through one handle can be seen through others. It can be seen through those
from which the walk first finds the name in the scope that was written, and through no other:
not through a handle from which a nearer scope hides the written one, nor through a handle
from which the walk does not come by.

An assignment binds no name that was not bound before. That is why the scope that a name
belongs to, seen from any handle, is the same before and after it, and a look-up afterwards
is the old walk with one new value at its end.

## Main results

* `nearest_iff`: the nearest scope is the first of the walk that binds the name.
* `Sound.lookup?_of_nearest`, `Sound.lookup?_of_not_nearest`: look-ups by the nearest scope.
* `nearest_write_iff`: an assignment leaves the nearest scopes as they are.
* `Sound.lookup?_write_self`, `Sound.lookup?_write_of_ne`: look-ups after an assignment.
-/

namespace TinyScript.Forest

variable {scopes : List SharedScope} {f : Forest} {handle id owner : Nat} {name : String}
  {chain : List Nat}

/-- `f.Nearest handle name owner`: on the walk outwards from a handle, `owner` is the first
scope that binds the name. -/
def Nearest (f : Forest) (handle : Nat) (name : String) (owner : Nat) : Prop :=
  ∃ id before rest, f.target? handle = some id ∧
    Lineage f.scopes id (before ++ owner :: rest) ∧
    (∀ k ∈ before, bindingAt f.scopes name k = none) ∧ bindingAt f.scopes name owner ≠ none

theorem Nearest.binds (h : f.Nearest handle name owner) : bindingAt f.scopes name owner ≠ none := by
  obtain ⟨_, _, _, _, _, _, hOwner⟩ := h
  exact hOwner

/-- There is one walk from each scope. -/
theorem Lineage.unique {chain' : List Nat} (h : Lineage scopes id chain)
    (h' : Lineage scopes id chain') : chain = chain' := by
  induction h generalizing chain' with
  | outermost hScope hParent =>
      cases h' with
      | outermost _ _ => rfl
      | inside hScope' hParent' _ =>
          obtain rfl := Option.some.inj (hScope.symm.trans hScope')
          rw [hParent] at hParent'
          cases hParent'
  | inside hScope hParent _ ih =>
      cases h' with
      | outermost hScope' hParent' =>
          obtain rfl := Option.some.inj (hScope.symm.trans hScope')
          rw [hParent] at hParent'
          cases hParent'
      | inside hScope' hParent' hOuter' =>
          obtain rfl := Option.some.inj (hScope.symm.trans hScope')
          obtain rfl := Option.some.inj (hParent.symm.trans hParent')
          rw [ih hOuter']

/-- The nearest scope is the first of the walk that binds the name. -/
theorem nearest_iff (hTarget : f.target? handle = some id) (hChain : Lineage f.scopes id chain) :
    f.Nearest handle name owner ↔
      chain.find? (fun k => (bindingAt f.scopes name k).isSome) = some owner := by
  rw [List.find?_eq_some_iff_append]
  constructor
  · rintro ⟨id', before, rest, hTarget', hChain', hBefore, hOwner⟩
    obtain rfl := Option.some.inj (hTarget.symm.trans hTarget')
    refine ⟨Option.isSome_iff_ne_none.2 hOwner, before, rest, hChain.unique hChain', ?_⟩
    intro k hk
    rw [hBefore k hk]
    rfl
  · rintro ⟨hOwner, before, rest, rfl, hBefore⟩
    refine ⟨id, before, rest, hTarget, hChain, ?_, Option.isSome_iff_ne_none.1 hOwner⟩
    intro k hk
    simpa using hBefore k hk

/-! ## What an assignment changes -/

/-- A name that is bound anew in a scope has that binding there; all else is bound as it was. -/
theorem bindingAt_set (hId : id < scopes.length) (name : String) (b : Binding) (other : String)
    (k : Nat) :
    bindingAt (scopes.modify id fun s => { s with frame := s.frame.set name b }) other k =
      if other = name ∧ k = id then some b else bindingAt scopes other k := by
  rw [bindingAt, List.getElem?_modify]
  by_cases hk : id = k
  · subst hk
    rw [List.getElem?_eq_getElem hId]
    simp [bindingAt, hId]
  · have hOther : ¬(other = name ∧ k = id) := fun hBoth => hk hBoth.2.symm
    rw [if_neg hOther, bindingAt]
    cases scopes[k]? <;> simp [hk]

/-- The written scope has the new value for the name; all else is bound as it was. -/
theorem bindingAt_write (h : bindingAt f.scopes name owner ≠ none) (v : Value) (other : String)
    (k : Nat) :
    bindingAt (f.write name v owner).scopes other k =
      if other = name ∧ k = owner then some (.initialized v) else bindingAt f.scopes other k := by
  have hOwner : owner < f.scopes.length := by
    by_contra hLt
    apply h
    rw [bindingAt, List.getElem?_eq_none (Nat.le_of_not_lt hLt)]
    rfl
  exact bindingAt_set hOwner name (.initialized v) other k

/-- An assignment binds no name that was not bound, and unbinds none. -/
theorem isSome_bindingAt_write (h : bindingAt f.scopes name owner ≠ none) (v : Value)
    (other : String) (k : Nat) :
    (bindingAt (f.write name v owner).scopes other k).isSome =
      (bindingAt f.scopes other k).isSome := by
  rw [bindingAt_write h]
  split
  · next hBoth =>
      obtain ⟨rfl, rfl⟩ := hBoth
      exact (Option.isSome_iff_ne_none.2 h).symm
  · rfl

theorem parent_write (f : Forest) (name : String) (v : Value) (owner k : Nat) :
    ((f.write name v owner).scopes[k]?).map SharedScope.parent =
      (f.scopes[k]?).map SharedScope.parent := by
  unfold write
  apply parent_modify
  intro s
  rfl

/-- From every handle a name belongs to the same scope before and after an assignment. -/
theorem nearest_write_iff (h : bindingAt f.scopes name owner ≠ none) (v : Value) {k o : Nat}
    {other : String} : (f.write name v owner).Nearest k other o ↔ f.Nearest k other o := by
  have hTarget : (f.write name v owner).target? k = f.target? k := rfl
  have hLineage : ∀ id chain,
      Lineage (f.write name v owner).scopes id chain ↔ Lineage f.scopes id chain := by
    intro id chain
    constructor
    · exact Lineage.congr fun k => (parent_write f name v owner k).symm
    · exact Lineage.congr (parent_write f name v owner)
  have hNone : ∀ k, bindingAt (f.write name v owner).scopes other k = none ↔
      bindingAt f.scopes other k = none := by
    intro k
    rw [← Option.isNone_iff_eq_none, ← Option.isNone_iff_eq_none, ← Option.not_isSome,
      ← Option.not_isSome, isSome_bindingAt_write h]
  simp only [Nearest, hTarget, hLineage, ne_eq, hNone]

namespace Sound

/-- A look-up gives what the nearest scope binds the name to. -/
theorem lookup?_of_nearest (h : f.Sound) (hNearest : f.Nearest handle name owner) :
    f.lookup? handle name = bindingAt f.scopes name owner := by
  obtain ⟨id, before, rest, hTarget, hChain, hBefore, hOwner⟩ := hNearest
  have hNone : before.findSome? (bindingAt f.scopes name) = none :=
    List.findSome?_eq_none_iff.2 hBefore
  obtain ⟨b, hSome⟩ := Option.ne_none_iff_exists'.1 hOwner
  rw [hChain.lookup?_eq h.layered hTarget, List.findSome?_append, hNone, Option.none_or,
    List.findSome?_cons, hSome]

theorem lookup?_of_not_nearest (h : f.Sound) (hNone : ∀ owner, ¬f.Nearest handle name owner) :
    f.lookup? handle name = none := by
  cases hTarget : f.target? handle with
  | none => simp [lookup?, hTarget]
  | some id =>
      obtain ⟨chain, hChain⟩ := h.layered.exists_lineage (h.lt_of_target hTarget)
      have hFree : chain.find? (fun k => (bindingAt f.scopes name k).isSome) = none :=
        Option.eq_none_iff_forall_ne_some.2 fun owner hOwner =>
          hNone owner ((nearest_iff hTarget hChain).2 hOwner)
      rw [hChain.lookup?_eq h.layered hTarget, List.findSome?_eq_none_iff]
      intro k hk
      simpa using List.find?_eq_none.1 hFree k hk

theorem write (h : f.Sound) (name : String) (v : Value) (owner : Nat) :
    (f.write name v owner).Sound :=
  h.reframe owner (·.set name (.initialized v))

/-- The new value is seen from where the written scope is the nearest one. -/
theorem lookup?_write_self (h : f.Sound) {k : Nat} (hNearest : f.Nearest k name owner) (v : Value) :
    (f.write name v owner).lookup? k name = some (.initialized v) := by
  have hBinds := hNearest.binds
  rw [(h.write name v owner).lookup?_of_nearest ((nearest_write_iff hBinds v).2 hNearest),
    bindingAt_write hBinds, if_pos ⟨rfl, rfl⟩]

/-- From everywhere else, and for other names, look-ups give what they gave before. -/
theorem lookup?_write_of_ne (h : f.Sound) (hBinds : bindingAt f.scopes name owner ≠ none)
    (v : Value) {k : Nat} {other : String} (hOther : ¬(other = name ∧ f.Nearest k name owner)) :
    (f.write name v owner).lookup? k other = f.lookup? k other := by
  have hWritten : (f.write name v owner).Sound := h.write name v owner
  by_cases hSome : ∃ o, f.Nearest k other o
  · obtain ⟨o, hNearest⟩ := hSome
    have hElsewhere : ¬(other = name ∧ o = owner) := by
      rintro ⟨rfl, rfl⟩
      exact hOther ⟨rfl, hNearest⟩
    rw [hWritten.lookup?_of_nearest ((nearest_write_iff hBinds v).2 hNearest),
      h.lookup?_of_nearest hNearest, bindingAt_write hBinds, if_neg hElsewhere]
  · have hNone : ∀ o, ¬f.Nearest k other o := fun o hNearest => hSome ⟨o, hNearest⟩
    rw [h.lookup?_of_not_nearest hNone, hWritten.lookup?_of_not_nearest]
    intro o hNearest
    exact hNone o ((nearest_write_iff hBinds v).1 hNearest)

end Sound

/--
**An assignment updates one slot.** Take any forest that operations on handles lead to, and a
handle in use. If no scope on its walk outwards binds a name, then assigning the name fails
and no look-up changes. If some scope does, then the assignment succeeds. Afterwards the name
has the new value from every handle from which the same scope is the nearest one that binds
it, and every other look-up, from any handle and for any name, gives what it gave before.
-/
theorem lookup?_perform_assign (ops : List Operation) (handle id : Nat)
    (hTarget : (after ops).target? handle = some id) (name : String) (v : Value) :
    let f := after ops
    let g := f.perform (.assign handle name v)
    ∃ chain, Lineage f.scopes id chain ∧
      ((∀ k ∈ chain, bindingAt f.scopes name k = none) →
        f.assign? handle name v = none ∧ ∀ k other, g.lookup? k other = f.lookup? k other) ∧
      ((∃ k ∈ chain, bindingAt f.scopes name k ≠ none) →
        f.assign? handle name v = some g ∧ ∃ owner, f.Nearest handle name owner ∧
          (∀ k, f.Nearest k name owner → g.lookup? k name = some (.initialized v)) ∧
          ∀ k other, ¬(other = name ∧ f.Nearest k name owner) →
            g.lookup? k other = f.lookup? k other) := by
  intro f g
  have hSound : f.Sound := sound_after ops
  obtain ⟨chain, hChain⟩ := hSound.layered.exists_lineage (hSound.lt_of_target hTarget)
  have hAssign := hChain.assign?_eq hSound.layered hTarget name v
  have hAfter : g = (f.assign? handle name v).getD f := rfl
  refine ⟨chain, hChain, fun hNone => ?_, fun hSome => ?_⟩
  · have hFree : chain.find? (fun k => (bindingAt f.scopes name k).isSome) = none :=
      List.find?_eq_none.2 fun k hk => by simp [hNone k hk]
    rw [hFree, Option.map_none] at hAssign
    rw [hAssign, Option.getD_none] at hAfter
    rw [hAfter]
    exact ⟨hAssign, fun _ _ => rfl⟩
  · obtain ⟨k, hk, hBinds⟩ := hSome
    have hFound : (chain.find? fun k => (bindingAt f.scopes name k).isSome).isSome = true :=
      List.find?_isSome.2 ⟨k, hk, Option.isSome_iff_ne_none.2 hBinds⟩
    obtain ⟨owner, hOwner⟩ := Option.isSome_iff_exists.1 hFound
    have hNearest : f.Nearest handle name owner := (nearest_iff hTarget hChain).2 hOwner
    rw [hOwner, Option.map_some] at hAssign
    rw [hAssign, Option.getD_some] at hAfter
    rw [hAfter]
    refine ⟨hAssign, owner, hNearest, ?_, ?_⟩
    · intro k hSame
      exact hSound.lookup?_write_self hSame v
    · intro k other hOther
      exact hSound.lookup?_write_of_ne hNearest.binds v hOther

/-- A root that binds `x`, two scopes inside it of which the second one binds `x` itself, another
handle to the first one, and the handle to the root dropped: `x` is assigned through the first. -/
theorem lookup?_perform_assign_siblings :
    let ops : List Operation := [.newRoot, .define 0 "x" .uninitialized, .newChild 0, .newChild 0,
      .define 2 "x" (.initialized .nil), .clone 1, .drop 0]
    let f := after ops
    let g := f.perform (.assign 1 "x" (.bool true))
    f.target? 1 = some 1 ∧ ∃ chain, Lineage f.scopes 1 chain ∧
      ((∀ k ∈ chain, bindingAt f.scopes "x" k = none) →
        f.assign? 1 "x" (.bool true) = none ∧ ∀ k other, g.lookup? k other = f.lookup? k other) ∧
      ((∃ k ∈ chain, bindingAt f.scopes "x" k ≠ none) →
        f.assign? 1 "x" (.bool true) = some g ∧ ∃ owner, f.Nearest 1 "x" owner ∧
          (∀ k, f.Nearest k "x" owner → g.lookup? k "x" = some (.initialized (.bool true))) ∧
          ∀ k other, ¬(other = "x" ∧ f.Nearest k "x" owner) →
            g.lookup? k other = f.lookup? k other) := by
  intro ops f g
  have hTarget : f.target? 1 = some 1 := rfl
  exact ⟨hTarget, lookup?_perform_assign ops 1 1 hTarget "x" (.bool true)⟩

/-- There the new value is seen through the other handle to the first scope, and not through
the handle to its sibling. -/
example :
    let ops : List Operation := [.newRoot, .define 0 "x" .uninitialized, .newChild 0, .newChild 0,
      .define 2 "x" (.initialized .nil), .clone 1, .drop 0, .assign 1 "x" (.bool true)]
    ((after ops).lookup? 3 "x", (after ops).lookup? 2 "x") =
      (some (.initialized (.bool true)), some (.initialized .nil)) := by
  cbv

end TinyScript.Forest
