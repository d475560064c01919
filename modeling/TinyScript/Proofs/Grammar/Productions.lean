import TinyScript.Grammar.Statement
import TinyScript.Proofs.Grammar.Tree

/-!
# Reasoning about productions

What the proofs about the productions of the grammar have in common.

`Reading.Yields` is a postcondition for a production: the tokens it was given begin
with the part that it read, and if nothing stopped it, its tree stands in a relation
to that part, to what was reported and to whether the statement is damaged. There is
one lemma for each way to build a reading, and sequential composition is
`Reading.Yields.bind`; the relation never mentions the tokens that are left.

`productions_induction` is the recursion of `expr` and `chain`, taken once: a level
may be proved from all levels on fewer tokens, from the tighter levels on the same
tokens and from its own chain.
-/

namespace TinyScript.Grammar

open Diagnostic (Mistake)
open Token (Kind)

/-! ## Levels that are chains -/

namespace Level

/-- The levels that are chains of operands. -/
def isChain : Level → Bool
  | .comma => true
  | .equality => true
  | .comparison => true
  | .term => true
  | .factor => true
  | _ => false

/-- Only a chain joins operands. -/
theorem isChain_of_join? {l : Level} {t : Token} {join : Expr → Expr → Expr}
    (h : l.join? t = some join) : l.isChain := by
  rcases join?_eq_some_iff.1 h with ⟨rfl, -, -⟩ | ⟨op, -, rfl, -⟩
  · rfl
  · cases op <;> rfl

theorem rank_tighter {l : Level} (h : 0 < l.rank) : l.tighter.rank + 1 = l.rank := by
  cases l
  case primary => exact absurd h (Nat.lt_irrefl 0)
  all_goals rfl

theorem rank_tighter_lt {l : Level} (h : l.isChain) : l.tighter.rank < l.rank := by
  have hPos : 0 < l.rank := by
    cases l
    case primary => cases h
    all_goals decide
  have hTighter := rank_tighter hPos
  omega

theorem rank_tighter_le (l : Level) : l.tighter.rank ≤ l.rank := by
  cases l <;> decide

theorem rank_inj {k l : Level} (h : k.rank = l.rank) : k = l := by
  cases k <;> cases l <;> first | rfl | cases h

end Level

variable {endLine : Nat}

/-- A chain begins with an operand of the next tighter level. -/
theorem expr_of_isChain {l : Level} (h : l.isChain) (ts : List Token) :
    expr endLine l ts =
      (expr endLine l.tighter ts).bind fun left rest => chain endLine l left rest := by
  cases l
  case comma => exact expr_comma ts
  case equality => exact expr_equality ts
  case comparison => exact expr_comparison ts
  case term => exact expr_term ts
  case factor => exact expr_factor ts
  all_goals cases h

/-! ## The recursion of the productions -/

/--
Induction along the recursion of the expression productions. The outer induction is on
the number of tokens. Inside it the chains come first, since they only call levels on
fewer tokens, and then the levels from the tightest to the loosest.
-/
theorem productions_induction {E : Level → List Token → Prop} {C : Level → Expr → List Token → Prop}
    (hExpr : ∀ l ts, (∀ k us, us.length < ts.length → E k us) → (∀ k, k.rank < l.rank → E k ts) →
      (∀ left us, us.length ≤ ts.length → C l left us) → E l ts)
    (hChain : ∀ l left ts, (∀ k us, us.length < ts.length → E k us) →
      (∀ left' us, us.length < ts.length → C l left' us) → C l left ts) :
    (∀ l ts, E l ts) ∧ ∀ l left ts, C l left ts := by
  have hBoth : ∀ n ts, ts.length = n → (∀ l, E l ts) ∧ ∀ l left, C l left ts := by
    intro n
    induction n using Nat.strongRecOn with
    | ind n ih =>
        intro ts hLength
        have hShorter : ∀ k us, us.length < ts.length → E k us := fun k us hLt =>
          (ih _ (hLength ▸ hLt) us rfl).1 k
        have hChains : ∀ l left us, us.length ≤ ts.length → C l left us := by
          intro l left us hLe
          refine hChain l left us (fun k vs hLt => hShorter k vs (by omega)) fun left' vs hLt => ?_
          exact (ih vs.length (by omega) vs rfl).2 l left'
        refine ⟨fun l => ?_, fun l left => hChains l left ts (Nat.le_refl _)⟩
        obtain ⟨m, hRank⟩ : ∃ m, l.rank = m := ⟨_, rfl⟩
        induction m using Nat.strongRecOn generalizing l with
        | ind m ihRank =>
            refine hExpr l ts hShorter (fun k hLt => ?_) (hChains l)
            exact ihRank k.rank (hRank ▸ hLt) k rfl
  exact ⟨fun l ts => (hBoth _ ts rfl).1 l, fun l left ts => (hBoth _ ts rfl).2 l left⟩

/-! ## Postconditions of readings -/

namespace Reading

variable {α β : Type}

@[simp] theorem bind_done (a : α) (ts : List Token) (f : α → List Token → Reading β) :
    (Reading.done a ts).bind f = f a ts := rfl

@[simp] theorem map_done (a : α) (ts : List Token) (f : α → β) :
    (Reading.done a ts).map f = .done (f a) ts := rfl

/-- A reading of `ts` reads a first part of them; if it gives a tree, then `Q` holds of the
tree, the part, the reports and the damage. -/
def Yields (r : Reading α) (ts : List Token)
    (Q : α → List Token → List Diagnostic → Bool → Prop) : Prop :=
  ∃ read, ts = read ++ r.rest ∧ ∀ a, r.outcome = .ok a → Q a read r.reports r.damaged

variable {ts : List Token} {Q : α → List Token → List Diagnostic → Bool → Prop}

theorem yields_done {a : α} (h : Q a [] [] false) : (Reading.done a ts).Yields ts Q := by
  refine ⟨[], rfl, ?_⟩
  intro b hb
  cases hb
  exact h

theorem yields_fail (d : Diagnostic) (ts : List Token) : (Reading.fail d ts).Yields ts Q := by
  refine ⟨[], rfl, ?_⟩
  intro a ha
  cases ha

/-- What follows other tokens is read after them. -/
theorem Yields.behind {r : Reading α} {front : List Token}
    (h : r.Yields ts fun a read => Q a (front ++ read)) : r.Yields (front ++ ts) Q := by
  obtain ⟨read, hSplit, hTree⟩ := h
  refine ⟨front ++ read, ?_, hTree⟩
  rw [List.append_assoc, ← hSplit]

theorem Yields.cons {r : Reading α} {t : Token}
    (h : r.Yields ts fun a read => Q a (t :: read)) : r.Yields (t :: ts) Q :=
  @Yields.behind _ _ _ _ [t] h

/-- Two readings in a row read two parts in a row. -/
theorem Yields.bind {r : Reading α} {f : α → List Token → Reading β}
    {Q' : β → List Token → List Diagnostic → Bool → Prop} (h : r.Yields ts Q)
    (hNext : ∀ a read rest reports damaged, ts = read ++ rest → Q a read reports damaged →
      (f a rest).Yields rest fun b more reports' damaged' =>
        Q' b (read ++ more) (reports ++ reports') (damaged || damaged')) :
    (r.bind f).Yields ts Q' := by
  obtain ⟨read, hSplit, hTree⟩ := h
  unfold Reading.bind
  split
  · next a hOk =>
      obtain ⟨more, hRest, hNext⟩ := hNext a read r.rest _ _ hSplit (hTree a hOk)
      refine ⟨read ++ more, ?_, hNext⟩
      rw [hSplit, List.append_assoc]
      exact congrArg _ hRest
  · refine ⟨read, hSplit, ?_⟩
    intro b hb
    cases hb

/-- Damage is reported before everything else, and stays. -/
theorem Yields.afterDamage {r : Reading α} {d : Diagnostic}
    (h : r.Yields ts fun a read reports _ => Q a read (d :: reports) true) :
    (r.afterDamage d).Yields ts Q := h

theorem Yields.imp {r : Reading α} {Q' : α → List Token → List Diagnostic → Bool → Prop}
    (h : r.Yields ts Q) (hImp : ∀ a read reports damaged, Q a read reports damaged →
      Q' a read reports damaged) : r.Yields ts Q' := by
  obtain ⟨read, hSplit, hTree⟩ := h
  exact ⟨read, hSplit, fun a ha => hImp a read _ _ (hTree a ha)⟩

theorem Yields.map {r : Reading α} {f : α → β}
    {Q' : β → List Token → List Diagnostic → Bool → Prop} (h : r.Yields ts Q)
    (hImp : ∀ a read reports damaged, Q a read reports damaged →
      Q' (f a) read reports damaged) : (r.map f).Yields ts Q' := by
  refine h.bind fun a read rest reports damaged _ hTree => yields_done ?_
  simpa using hImp a read reports damaged hTree

end Reading

/-- A token that is expected is read, and nothing else is. -/
theorem yields_expect (kind : Kind) (m : Mistake) (ts : List Token) :
    (expect kind m endLine ts).Yields ts fun t read reports damaged =>
      t.kind = kind ∧ read = [t] ∧ reports = [] ∧ damaged = false := by
  cases ts with
  | nil => exact Reading.yields_fail _ _
  | cons t rest =>
      by_cases hKind : t.kind = kind
      · simp only [expect, hKind, if_true]
        exact (Reading.yields_done ⟨hKind, rfl, rfl, rfl⟩).cons
      · simp only [expect, hKind, if_false]
        exact Reading.yields_fail _ _

end TinyScript.Grammar
