import TinyScript.Diagnostic.Basic

/-!
# Readings

A production of the grammar reads from the front of a list of tokens. What it gives
is a `Reading`: a tree or the mistake that stopped it, the tokens it left, the
mistakes it reported without stopping, and whether it put a placeholder where
something was missing.

Readings are composed by `Reading.bind`. Productions recurse on the tokens they leave,
so the composition is also given for readings that are known to leave no more than
they were given (`Within`); it computes the same readings (`Within.val_bind`).
-/

namespace TinyScript.Grammar

open Diagnostic (Mistake)
open Token (Kind)

/-- What a production gives. -/
structure Reading (α : Type) where
  /-- The tree, or the mistake that stopped the production. -/
  outcome : Except Diagnostic α
  /-- The tokens left. -/
  rest : List Token
  /-- The mistakes reported so far, in order, without the one that stopped the production. -/
  reports : List Diagnostic := []
  /-- Whether the statement is unfit for use, whatever the outcome. -/
  damaged : Bool := false

namespace Reading

variable {α β : Type}

/-- Reads nothing and gives `a`. -/
def done (a : α) (ts : List Token) : Reading α :=
  { outcome := .ok a, rest := ts }

/-- Stops at a mistake. -/
def fail (d : Diagnostic) (ts : List Token) : Reading α :=
  { outcome := .error d, rest := ts }

/-- Puts the reports and the damage of an earlier reading before those of a later one. -/
def followedBy (r : Reading α) (s : Reading β) : Reading β :=
  { s with reports := r.reports ++ s.reports, damaged := r.damaged || s.damaged }

/-- Goes on with the tree and the tokens left, unless a mistake stopped the first reading. -/
def bind (r : Reading α) (f : α → List Token → Reading β) : Reading β :=
  match r.outcome with
  | .ok a => r.followedBy (f a r.rest)
  | .error d => r.followedBy (fail d r.rest)

/-- Changes the tree of a reading. -/
def map (f : α → β) (r : Reading α) : Reading β :=
  r.bind fun a rest => done (f a) rest

/-- Reports a mistake before everything else and marks the statement as unfit. -/
def afterDamage (d : Diagnostic) (r : Reading α) : Reading α :=
  { r with reports := d :: r.reports, damaged := true }

end Reading

/-- The report of a mistake at the first of the tokens left, or at the end of the source. -/
def mistakeAt (m : Mistake) (endLine : Nat) : List Token → Diagnostic
  | t :: _ => m.atToken t
  | [] => m.atEnd endLine

/-- Reads one token of the given kind. -/
def expect (kind : Kind) (m : Mistake) (endLine : Nat) (ts : List Token) : Reading Token :=
  match ts with
  | t :: rest => if t.kind = kind then .done t rest else .fail (mistakeAt m endLine ts) ts
  | [] => .fail (mistakeAt m endLine ts) ts

/-! ## Readings that never grow -/

/-- A reading that leaves no more tokens than `ts` has. -/
abbrev Within (ts : List Token) (α : Type) : Type :=
  { r : Reading α // r.rest.length ≤ ts.length }

namespace Within

variable {α β : Type} {ts : List Token}

/-- Reads nothing and gives `a`. -/
def done (a : α) (ts : List Token) : Within ts α :=
  ⟨.done a ts, Nat.le_refl _⟩

/-- Stops at a mistake. -/
def fail (d : Diagnostic) (ts : List Token) : Within ts α :=
  ⟨.fail d ts, Nat.le_refl _⟩

/-- A reading of the tokens after the first one. -/
def behind (t : Token) (w : Within ts α) : Within (t :: ts) α :=
  ⟨w.val, Nat.le_succ_of_le w.property⟩

/-- `Reading.bind`, where the second reading may use that the tokens have not grown. -/
@[inline] def bind (w : Within ts α)
    (f : α → (rest : List Token) → rest.length ≤ ts.length → Within rest β) : Within ts β :=
  match w.val.outcome with
  | .ok a =>
    let next := f a w.val.rest w.property
    ⟨w.val.followedBy next.val, Nat.le_trans next.property w.property⟩
  | .error d => ⟨w.val.followedBy (.fail d w.val.rest), w.property⟩

theorem val_behind (t : Token) (w : Within ts α) : (w.behind t).val = w.val :=
  rfl

/-- Composing bounded readings composes the readings. -/
theorem val_bind (w : Within ts α)
    (f : α → (rest : List Token) → rest.length ≤ ts.length → Within rest β)
    (g : α → List Token → Reading β) (h : ∀ a rest hRest, (f a rest hRest).val = g a rest) :
    (w.bind f).val = w.val.bind g := by
  unfold bind Reading.bind
  split <;> simp [*]

end Within

/-- Reading one token never adds tokens. -/
theorem length_expect (kind : Kind) (m : Mistake) (endLine : Nat) (ts : List Token) :
    (expect kind m endLine ts).rest.length ≤ ts.length := by
  unfold expect
  split
  · split <;> simp [Reading.done, Reading.fail]
  · simp [Reading.fail]

/-- Changing the tree leaves the same tokens. -/
theorem Reading.rest_map {α β : Type} (f : α → β) (r : Reading α) : (r.map f).rest = r.rest := by
  unfold Reading.map Reading.bind
  split <;> rfl

end TinyScript.Grammar
