import Mathlib.Order.Bounds.Defs
import TinyScript.Proofs.Grammar.Containment
import TinyScript.Proofs.Grammar.Progress

/-!
# Where recovery stops

After a mistake reading resumes at a boundary: behind a semicolon, at a word that begins a
statement, or at the end mark. What counts is the first boundary behind the token at
fault. That token is skipped whatever it is, so a word that begins a statement does not
stop recovery when it is the token at fault itself.

Recovery is a loop, and each of its turns is seen here as a step from a cursor to the next
one. A turn looks at one place only: it ends the loop if the next cursor stands at a
boundary, and goes on from there if not (`Cursor.synchronize_step`). So the places that
are passed over are no boundaries, and the one where the loop ends is the least.
-/

namespace TinyScript.Grammar

open Token (Kind)

/-! ## Boundaries -/

/-- The kind of the token at a place, if there is one. -/
def kindAt? (ts : List Token) (i : Nat) : Option Kind :=
  ts[i]?.map Token.kind

/-- Whether a statement may begin at a place: behind a semicolon, or at a word that begins a
statement, or at an end mark, where no statement follows. -/
def IsBoundary (ts : List Token) (q : Nat) : Prop :=
  kindAt? ts (q - 1) = some .semicolon ∨ (∃ k ∈ statementWords, kindAt? ts q = some k) ∨
    kindAt? ts q = some .endOfFile

instance (ts : List Token) (q : Nat) : Decidable (IsBoundary ts q) :=
  inferInstanceAs (Decidable (_ ∨ _ ∨ _))

namespace Cursor

variable {ts : List Token}

theorem kindAt?_sealed (c : Cursor ts) : kindAt? (sealed ts) c.pos = some c.current.kind := by
  rw [kindAt?, List.getElem?_eq_getElem c.pos_lt_length_sealed]
  rfl

/-- Before the end mark there is a next cursor, behind the token under this one. -/
theorem exists_next {c : Cursor ts} (h : c.current.kind ≠ .endOfFile) :
    ∃ next : Cursor ts, c.left = c.current :: next.left ∧ next.pos = c.pos + 1 := by
  rcases c.left_eq with ⟨-, hMark, -⟩ | ⟨⟨rest, hLeft⟩, -⟩
  · exact absurd hMark h
  · have hSplit : c.left = [c.current] ++ rest := hLeft
    obtain ⟨next, rfl, hPos⟩ := exists_of_left_eq_append hSplit
    exact ⟨next, hLeft, hPos⟩

theorem left_eq_nil_iff (c : Cursor ts) : c.left = [] ↔ c.current.kind = .endOfFile := by
  rcases c.left_eq with ⟨hLeft, hMark, -⟩ | ⟨⟨rest, hLeft⟩, hOther⟩
  · exact iff_of_true hLeft hMark
  · refine iff_of_false ?_ hOther
    rw [hLeft]
    exact List.cons_ne_nil _ _

/-- What is left at a later cursor is a last part of what is left at an earlier one. -/
theorem left_suffix_left {c d : Cursor ts} (h : c.pos ≤ d.pos) : d.left <:+ c.left := by
  obtain ⟨n, hn⟩ := Nat.exists_eq_add_of_le h
  have hDrop : d.left = c.left.drop n := by
    rw [left, left, List.drop_drop, ← hn]
  rw [hDrop]
  exact List.drop_suffix n c.left

/-! ## Turns of the loop -/

/-- Whether what is left begins a statement is seen from the token under the cursor, since the
end mark does not begin one. -/
theorem startsStatement_left_iff (c : Cursor ts) :
    startsStatement c.left = true ↔ c.current.kind ∈ statementWords := by
  rcases c.left_eq with ⟨hLeft, hMark, -⟩ | ⟨⟨rest, hLeft⟩, -⟩
  · rw [hLeft, hMark]
    decide
  · rw [hLeft, startsStatement, contains_statementStart]

section Turns

variable {c next : Cursor ts}

/-- A boundary behind the first token, seen from the two cursors around it. -/
theorem isBoundary_next_iff (hPos : next.pos = c.pos + 1) :
    IsBoundary (sealed ts) next.pos ↔ c.current.kind = .semicolon ∨
      next.current.kind ∈ statementWords ∨ next.current.kind = .endOfFile := by
  have hBefore : next.pos - 1 = c.pos := by omega
  rw [IsBoundary, hBefore, kindAt?_sealed, kindAt?_sealed]
  simp

/-- One turn of recovery: it ends at the next cursor if a boundary is there, and goes on from it
otherwise. -/
theorem synchronize_step (hLeft : c.left = c.current :: next.left)
    (hPos : next.pos = c.pos + 1) :
    synchronize c.left =
      if IsBoundary (sealed ts) next.pos then next.left else synchronize next.left := by
  rw [hLeft, synchronize]
  simp only [startsStatement_left_iff, isBoundary_next_iff hPos]
  by_cases hSemicolon : c.current.kind = .semicolon
  · simp [hSemicolon]
  · by_cases hWord : next.current.kind ∈ statementWords
    · simp [hWord]
    · by_cases hMark : next.current.kind = .endOfFile
      · -- The loop does not look for the end mark: nothing is left there, so it cannot go on.
        rw [(left_eq_nil_iff next).2 hMark]
        simp [synchronize]
      · simp [hSemicolon, hWord, hMark]

end Turns

/-- The whole loop: from a token that is not the end mark it goes to the least boundary behind
that token. -/
theorem exists_synchronize_eq_isLeast (c : Cursor ts) (h : c.current.kind ≠ .endOfFile) :
    ∃ stop : Cursor ts, synchronize c.left = stop.left ∧
      IsLeast {q | c.pos < q ∧ IsBoundary (sealed ts) q} stop.pos := by
  obtain ⟨n, hLength⟩ : ∃ n, c.left.length = n := ⟨_, rfl⟩
  induction n generalizing c with
  | zero => exact absurd ((left_eq_nil_iff c).1 (List.length_eq_zero_iff.1 hLength)) h
  | succ n ih =>
      obtain ⟨next, hLeft, hPos⟩ := exists_next h
      have hStep := synchronize_step hLeft hPos
      by_cases hHere : IsBoundary (sealed ts) next.pos
      · rw [if_pos hHere] at hStep
        refine ⟨next, hStep, ⟨by omega, hHere⟩, ?_⟩
        rintro q ⟨hBehind, -⟩
        omega
      · rw [if_neg hHere] at hStep
        have hGoesOn : next.current.kind ≠ .endOfFile :=
          fun hMark => hHere ((isBoundary_next_iff hPos).2 (.inr (.inr hMark)))
        have hShorter : next.left.length = n := by
          rw [hLeft, List.length_cons] at hLength
          omega
        obtain ⟨stop, hStop, ⟨hBehind, hBoundary⟩, hLeast⟩ := ih next hGoesOn hShorter
        refine ⟨stop, hStep.trans hStop, ⟨by omega, hBoundary⟩, ?_⟩
        rintro q ⟨hq, hOther⟩
        -- The place that this turn looked at is no boundary, so the others are behind it.
        have hNe : q ≠ next.pos := fun hEq => hHere (hEq ▸ hOther)
        exact hLeast ⟨by omega, hOther⟩

end Cursor

/--
**Recovery stops at the first boundary.** At the end mark recovery does not move. From any
other token it goes to the least place behind that token which is a boundary: behind a
semicolon, at a word that begins a statement, or at the end mark. So the token at fault
is skipped, whatever it is, and nothing that stands at a later boundary is: all that is
left there is still left.
-/
theorem synchronize_stops_at_first_boundary (ts : List Token) (c : Cursor ts) :
    ∃ stop : Cursor ts, synchronize c.left = stop.left ∧
      (c.current.kind = .endOfFile → stop.pos = c.pos) ∧
      (c.current.kind ≠ .endOfFile →
        IsLeast {q | c.pos < q ∧ IsBoundary (sealed ts) q} stop.pos) ∧
      ∀ later : Cursor ts, c.pos < later.pos → IsBoundary (sealed ts) later.pos →
        later.left <:+ stop.left := by
  by_cases hMark : c.current.kind = .endOfFile
  · have hNil : c.left = [] := (c.left_eq_nil_iff).2 hMark
    refine ⟨c, ?_, fun _ => rfl, fun h => absurd hMark h, ?_⟩
    · rw [hNil, synchronize]
    · intro later hBehind _
      exact Cursor.left_suffix_left (Nat.le_of_lt hBehind)
  · obtain ⟨stop, hStop, hLeast⟩ := c.exists_synchronize_eq_isLeast hMark
    refine ⟨stop, hStop, fun h => absurd h hMark, fun _ => hLeast, ?_⟩
    intro later hBehind hBoundary
    exact Cursor.left_suffix_left (hLeast.2 ⟨hBehind, hBoundary⟩)

/-- The first word is at fault here, so recovery looks for a boundary behind it only. -/
example :
    let word : Token := ⟨.kwPrint, "print", none, 1⟩
    (synchronize [word, word, word]).length = 2 := by
  decide

end TinyScript.Grammar
