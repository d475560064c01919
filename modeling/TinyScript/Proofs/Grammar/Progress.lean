import Mathlib.Data.List.TakeWhile
import TinyScript.Proofs.Grammar.Derivation

/-!
# The cursor always moves on

Reading stands on a list of tokens that are left. Here the same is seen as a cursor in
the list of all tokens, which has an end mark at its end. A `Cursor` carries the proof
that it is at or before the first end mark, so the token under it can always be looked
up, and `Cursor.left` is the list of tokens that a production is given there.

From every cursor every production ends at a cursor again, which is not before the
first one, and further on if nothing stopped the production. This is read off the
derivations: no tree is derived from no tokens. A statement that was stopped may have
read nothing, and it is recovery that skips at least one token then. So the loop over
statements moves on in each of its turns, and it ends.
-/

namespace TinyScript.Grammar

open Diagnostic (Mistake)
open Token (Kind)

/-! ## Cursors -/

/-- The tokens, with an end mark put behind them unless the last of them is one. -/
def sealed (ts : List Token) : List Token :=
  match ts.getLast? with
  | some last => if last.kind = .endOfFile then ts else ts ++ [Token.endOfFile last.line]
  | none => [Token.endOfFile 1]

theorem kind_ne_of_mem_beforeEnd {ts : List Token} {t : Token} (h : t ∈ beforeEnd ts) :
    t.kind ≠ .endOfFile := by
  simpa using List.mem_takeWhile_imp h

/-- The first end mark stands behind the tokens that are read, and mistakes at the end are
reported in its line. -/
theorem exists_sealed_eq (ts : List Token) :
    ∃ mark after, mark.kind = .endOfFile ∧ mark.line = endLineOf ts ∧
      sealed ts = beforeEnd ts ++ mark :: after := by
  have hSplit : beforeEnd ts ++ ts.dropWhile (·.kind ≠ .endOfFile) = ts :=
    List.takeWhile_append_dropWhile
  have hFind : ts.find? (·.kind = .endOfFile) = (ts.dropWhile (·.kind ≠ .endOfFile)).head? := by
    simpa using ts.find?_eq_head?_dropWhile_not (·.kind = .endOfFile)
  cases hDrop : ts.dropWhile (·.kind ≠ .endOfFile) with
  | cons mark after =>
      rw [hDrop] at hSplit hFind
      have hMark : mark.kind = .endOfFile := by simpa using List.find?_some hFind
      have hLine : mark.line = endLineOf ts := by
        rw [endLineOf, hFind]
        rfl
      unfold sealed
      split
      · next last _ =>
          by_cases hLast : last.kind = .endOfFile
          · rw [if_pos hLast]
            exact ⟨mark, after, hMark, hLine, hSplit.symm⟩
          · rw [if_neg hLast]
            refine ⟨mark, after ++ [Token.endOfFile last.line], hMark, hLine, ?_⟩
            rw [← List.cons_append, ← List.append_assoc, hSplit]
      · next hNone =>
          rw [List.getLast?_eq_none_iff.1 hNone] at hDrop
          cases hDrop
  | nil =>
      rw [hDrop] at hSplit hFind
      rw [List.append_nil] at hSplit
      unfold sealed
      split
      · next last hLast =>
          have hOther : last.kind ≠ .endOfFile := by
            have hMem : last ∈ ts := List.mem_of_getLast? hLast
            rw [← hSplit] at hMem
            exact kind_ne_of_mem_beforeEnd hMem
          have hLine : last.line = endLineOf ts := by
            rw [endLineOf, hFind, hLast]
            rfl
          rw [if_neg hOther, hSplit]
          exact ⟨Token.endOfFile last.line, [], rfl, hLine, rfl⟩
      · next hNone =>
          rw [List.getLast?_eq_none_iff.1 hNone]
          exact ⟨_, [], rfl, rfl, rfl⟩

/-- A place in the tokens at or before the first end mark. -/
structure Cursor (ts : List Token) where
  pos : Nat
  inRange : pos ≤ (beforeEnd ts).length

namespace Cursor

variable {ts : List Token}

/-- The cursor at the first of the tokens. -/
def start (ts : List Token) : Cursor ts :=
  ⟨0, Nat.zero_le _⟩

/-- The tokens that are left, up to the first end mark. -/
def left (c : Cursor ts) : List Token :=
  (beforeEnd ts).drop c.pos

/-- What stands in the tokens from the cursor on. -/
theorem exists_drop_sealed_eq (c : Cursor ts) :
    ∃ mark after, mark.kind = .endOfFile ∧ mark.line = endLineOf ts ∧
      (sealed ts).drop c.pos = c.left ++ mark :: after := by
  obtain ⟨mark, after, hMark, hLine, hSealed⟩ := exists_sealed_eq ts
  refine ⟨mark, after, hMark, hLine, ?_⟩
  rw [hSealed, List.drop_append_of_le_length c.inRange]
  rfl

theorem pos_lt_length_sealed (c : Cursor ts) : c.pos < (sealed ts).length := by
  obtain ⟨mark, after, -, -, hSealed⟩ := exists_sealed_eq ts
  have hRange := c.inRange
  rw [hSealed, List.length_append, List.length_cons]
  omega

/-- The token under the cursor. -/
def current (c : Cursor ts) : Token :=
  (sealed ts).get ⟨c.pos, c.pos_lt_length_sealed⟩

/-- The token under the cursor is the first one left, or the first end mark if none is left. -/
theorem left_eq (c : Cursor ts) :
    (c.left = [] ∧ c.current.kind = .endOfFile ∧ c.current.line = endLineOf ts) ∨
      (∃ rest, c.left = c.current :: rest) ∧ c.current.kind ≠ .endOfFile := by
  obtain ⟨mark, after, hMark, hLine, hDrop⟩ := c.exists_drop_sealed_eq
  have hCurrent : (c.left ++ mark :: after).head? = some c.current := by
    rw [← hDrop, List.head?_drop]
    exact List.getElem?_eq_getElem c.pos_lt_length_sealed
  cases hLeft : c.left with
  | nil =>
      rw [hLeft] at hCurrent
      cases hCurrent
      exact .inl ⟨rfl, hMark, hLine⟩
  | cons t rest =>
      rw [hLeft] at hCurrent
      cases hCurrent
      have hMem : c.current ∈ c.left := by
        rw [hLeft]
        exact List.mem_cons_self
      exact .inr ⟨⟨rest, rfl⟩, kind_ne_of_mem_beforeEnd (List.mem_of_mem_drop hMem)⟩

theorem length_left (c : Cursor ts) : c.left.length = (beforeEnd ts).length - c.pos :=
  List.length_drop

/-- Reading some of the tokens left moves the cursor behind them. -/
theorem exists_of_left_eq_append {c : Cursor ts} {read rest : List Token}
    (h : c.left = read ++ rest) :
    ∃ c' : Cursor ts, rest = c'.left ∧ c'.pos = c.pos + read.length := by
  have hLength := congrArg List.length h
  have hRange := c.inRange
  rw [length_left, List.length_append] at hLength
  refine ⟨⟨c.pos + read.length, by omega⟩, ?_, rfl⟩
  show rest = (beforeEnd ts).drop (c.pos + read.length)
  rw [← List.drop_drop]
  show rest = c.left.drop read.length
  rw [h, List.drop_left]

/-! ## Moves -/

/-- A reading that starts at the cursor ends at one that is not before it and, unless a
mistake stopped the reading, further on. -/
def Moves {α : Type} (c : Cursor ts) (r : Reading α) : Prop :=
  ∃ c' : Cursor ts, r.rest = c'.left ∧ c.pos ≤ c'.pos ∧ ∀ a, r.outcome = .ok a → c.pos < c'.pos

end Cursor

/-- A reading that is given the tokens left, and whose trees are derived from some tokens
at least, moves the cursor. -/
theorem Reading.Yields.moves {α : Type} {ts : List Token} {c : Cursor ts} {r : Reading α}
    {Q : α → List Token → List Diagnostic → Bool → Prop} (h : r.Yields c.left Q)
    (hSome : ∀ {a read reports damaged}, Q a read reports damaged → read ≠ []) : c.Moves r := by
  obtain ⟨read, hSplit, hTree⟩ := h
  obtain ⟨c', hRest, hPos⟩ := Cursor.exists_of_left_eq_append hSplit
  refine ⟨c', hRest, by omega, ?_⟩
  intro a ha
  have hRead : 0 < read.length := List.length_pos_of_ne_nil (hSome (hTree a ha))
  omega

/-! ## No tree without tokens -/

theorem Phrase.tokens_ne_nil {l : Level} {e : Expr} {ts : List Token} {reports : List Diagnostic}
    {damaged : Bool} (h : Phrase l e ts reports damaged) : ts ≠ [] := by
  induction h with
  | tighter _ ih => exact ih
  | _ => simp

theorem Clause.tokens_ne_nil {d : Declaration} {ts : List Token} {reports : List Diagnostic}
    {damaged : Bool} (h : Clause d ts reports damaged) : ts ≠ [] := by
  cases h <;> simp

theorem Clauses.tokens_ne_nil {ds : List Declaration} {ts : List Token} {reports : List Diagnostic}
    {damaged : Bool} (h : Clauses ds ts reports damaged) : ts ≠ [] := by
  cases h with
  | one h => exact h.tokens_ne_nil
  | more first hComma others => simp

theorem Sentence.tokens_ne_nil {s : Stmt} {ts : List Token} {reports : List Diagnostic}
    {damaged : Bool} (h : Sentence s ts reports damaged) : ts ≠ [] := by
  cases h <;> simp

/-- Every item takes a token at least. -/
theorem Passage.length_le {items : List Item} {ts : List Token} (h : Passage items ts) :
    items.length ≤ ts.length := by
  induction h with
  | nil => exact Nat.le_refl _
  | sentence h _ ih =>
      have hSome := List.length_pos_of_ne_nil h.tokens_ne_nil
      rw [List.length_cons, List.length_append]
      omega
  | block _ _ _ _ _ ih =>
      rw [List.length_cons, List.length_append, List.length_cons]
      omega
  | broken hSome _ ih =>
      have hSome := List.length_pos_of_ne_nil hSome
      rw [List.length_cons, List.length_append]
      omega

theorem Passage.tokens_ne_nil {item : Item} {ts : List Token} (h : Passage [item] ts) :
    ts ≠ [] :=
  List.ne_nil_of_length_pos h.length_le

/-! ## Progress -/

/-- The loop over the operators of a chain reads a first part of the tokens. -/
theorem chain_yields_true {endLine : Nat} (l : Level) (left : Expr) (ts : List Token) :
    (chain endLine l left ts).Yields ts fun _ _ _ _ => True := by
  obtain ⟨n, hLength⟩ : ∃ n, ts.length = n := ⟨_, rfl⟩
  induction n using Nat.strongRecOn generalizing left ts with
  | ind n ih =>
      cases ts with
      | nil =>
          rw [chain_nil]
          exact Reading.yields_done trivial
      | cons t rest =>
          rw [chain_cons]
          cases l.join? t with
          | none => exact Reading.yields_done trivial
          | some join =>
              refine ((expr_yields l.tighter rest).bind
                fun right read after _ _ hSplit _ => ?_).cons
              have hAfter : after.length < n := by
                rw [← hLength, hSplit, List.length_cons, List.length_append]
                omega
              exact ih _ hAfter (join left right) after rfl

namespace Cursor

variable {ts : List Token}

/-- A reading that ends with a semicolon moves the cursor, whatever comes before. -/
theorem moves_terminated {α : Type} {endLine : Nat} {c : Cursor ts} {r : Reading α}
    {Q : α → List Token → List Diagnostic → Bool → Prop} (h : r.Yields c.left Q) (s : α → Stmt)
    (m : Mistake) : c.Moves (r.bind fun a rest => terminated (s a) m endLine rest) := by
  have hYields : (r.bind fun a rest => terminated (s a) m endLine rest).Yields c.left
      fun _ read _ _ => read ≠ [] := by
    refine h.bind fun a read rest _ _ _ _ => (yields_terminated (s a) m rest).imp ?_
    rintro _ _ _ _ ⟨-, ⟨t, -, rfl⟩, -, -⟩
    exact List.append_ne_nil_of_right_ne_nil _ (List.cons_ne_nil _ _)
  exact hYields.moves id

theorem exists_of_suffix {c : Cursor ts} {rest : List Token} (h : rest <:+ c.left) :
    ∃ c' : Cursor ts, rest = c'.left ∧ c.pos ≤ c'.pos := by
  obtain ⟨read, hSplit⟩ := h
  obtain ⟨c', hRest, hPos⟩ := exists_of_left_eq_append hSplit.symm
  exact ⟨c', hRest, by omega⟩

/-- Where fewer tokens are left, the cursor stands further on. -/
theorem pos_lt_of_length_left_lt {c c' : Cursor ts} (h : c'.left.length < c.left.length) :
    c.pos < c'.pos := by
  rw [length_left, length_left] at h
  omega

/-- Where a list of items ends, seen from the cursor. -/
theorem kind_of_itemsEnd {nested : Bool} {c : Cursor ts} (h : ItemsEnd nested c.left) :
    c.current.kind = .endOfFile ∨ nested = true ∧ c.current.kind = .rightBrace := by
  rcases c.left_eq with ⟨-, hMark, -⟩ | ⟨⟨rest, hLeft⟩, -⟩
  · exact .inl hMark
  · rw [hLeft] at h
    rcases h with hNil | ⟨hNested, t, after, hCons, hClose⟩
    · cases hNil
    · cases hCons
      exact .inr ⟨hNested, hClose⟩

/-- What becomes of the cursor when a production is called while it stands at `c`. -/
structure Progress (endLine : Nat) (c : Cursor ts) : Prop where
  /-- One token, if it is the expected one. -/
  token : ∀ kind m, c.Moves (expect kind m endLine c.left)
  /-- Expressions of each level. -/
  expression : ∀ l, c.Moves (expr endLine l c.left)
  /-- The operators and operands that follow in a chain, if there are any. -/
  operators : ∀ l left, ∃ c' : Cursor ts,
    (chain endLine l left c.left).rest = c'.left ∧ c.pos ≤ c'.pos
  /-- One declared name. -/
  name : c.Moves (declarator endLine c.left)
  /-- Declared names with commas between them. -/
  names : c.Moves (declarators endLine c.left)
  /-- Declarations, behind their first word. -/
  declaring : c.Moves (declarationStatement endLine c.left)
  /-- Print statements, behind their first word. -/
  printing : c.Moves (printStatement endLine c.left)
  /-- Expression statements. -/
  evaluating : c.Moves (expressionStatement endLine c.left)
  /-- Blocks, behind their opening brace. -/
  block : c.Moves
    (closeBlock endLine (items endLine true c.left).1 (items endLine true c.left).2)
  /-- Statements and declarations. -/
  anyStatement : c.Moves (statement endLine c.left)
  /-- Recovery, which skips a token if there is one. -/
  recovery : ∃ c' : Cursor ts, synchronize c.left = c'.left ∧ c.pos ≤ c'.pos ∧
    (c.current.kind ≠ .endOfFile → c.pos < c'.pos)
  /-- One turn of the loop over statements, whether the statement is kept, dropped or given
  up. -/
  turn : c.current.kind ≠ .endOfFile →
    ∃ c' : Cursor ts, (settle (statement endLine c.left)).2 = c'.left ∧ c.pos < c'.pos
  /-- The loop, which makes one item a turn and ends at the end mark or, in a block, in front
  of a closing brace. -/
  loop : ∀ nested, ∃ c' : Cursor ts, (items endLine nested c.left).2 = c'.left ∧
    c.pos + (items endLine nested c.left).1.length ≤ c'.pos ∧
    (c'.current.kind = .endOfFile ∨ nested = true ∧ c'.current.kind = .rightBrace)

theorem progress (endLine : Nat) (c : Cursor ts) : c.Progress endLine := by
  have hStatement := (@statement_yields_and_exists_passage endLine c.left).1
  have hItems := (@statement_yields_and_exists_passage endLine c.left).2
  have hSome : c.current.kind ≠ .endOfFile → ∃ rest, c.left = c.current :: rest := by
    intro hCurrent
    rcases c.left_eq with ⟨-, hMark, -⟩ | ⟨hLeft, -⟩
    · exact absurd hMark hCurrent
    · exact hLeft
  constructor
  case token =>
    intro kind m
    refine (yields_expect kind m c.left).moves ?_
    rintro t _ _ _ ⟨-, rfl, -⟩
    exact List.cons_ne_nil _ _
  case expression => exact fun l => (expr_yields l c.left).moves Phrase.tokens_ne_nil
  case operators =>
    intro l left
    obtain ⟨read, hSplit, -⟩ := @chain_yields_true endLine l left c.left
    exact exists_of_suffix ⟨read, hSplit.symm⟩
  case name => exact (yields_declarator c.left).moves Clause.tokens_ne_nil
  case names => exact (yields_declarators c.left).moves Clauses.tokens_ne_nil
  case declaring => exact moves_terminated (yields_declarators c.left) Grammar.declaring _
  case printing => exact moves_terminated (expr_yields .comma c.left) Stmt.print _
  case evaluating => exact moves_terminated (expr_yields .comma c.left) Stmt.expression _
  case block =>
    obtain ⟨read, hSplit, -, -⟩ := hItems true
    obtain ⟨more, hMore, hTree⟩ := @yields_closeBlock endLine (items endLine true c.left).1
      (items endLine true c.left).2
    have hYields : (closeBlock endLine (items endLine true c.left).1
        (items endLine true c.left).2).Yields c.left fun _ read _ _ => read ≠ [] := by
      refine ⟨read ++ more, ?_, fun s hs => ?_⟩
      · rw [List.append_assoc, ← hMore]
        exact hSplit
      · obtain ⟨⟨t, -, rfl⟩, -⟩ := hTree s hs
        exact List.append_ne_nil_of_right_ne_nil _ (List.cons_ne_nil _ _)
    exact hYields.moves id
  case anyStatement => exact hStatement.moves Passage.tokens_ne_nil
  case recovery =>
    obtain ⟨c', hRest, hPos⟩ := exists_of_suffix (synchronize_suffix c.left)
    refine ⟨c', hRest, hPos, fun hCurrent => pos_lt_of_length_left_lt ?_⟩
    obtain ⟨rest, hLeft⟩ := hSome hCurrent
    rw [← hRest, hLeft]
    exact Nat.lt_succ_of_le (length_synchronize_cons _ rest)
  case turn =>
    intro hCurrent
    obtain ⟨rest, hLeft⟩ := hSome hCurrent
    -- A statement that was stopped may have read nothing, so the bound is the one after recovery.
    have hLength := @length_settle_statement endLine c.current rest
    rw [← hLeft] at hLength
    obtain ⟨read, hSplit, -⟩ := exists_passage_settle hStatement hLength
    obtain ⟨c', hRest, -⟩ := exists_of_left_eq_append hSplit
    rw [hRest] at hLength
    exact ⟨c', hRest, pos_lt_of_length_left_lt hLength⟩
  case loop =>
    intro nested
    obtain ⟨read, hSplit, hPassage, hEnd⟩ := hItems nested
    obtain ⟨c', hRest, hPos⟩ := exists_of_left_eq_append hSplit
    have hTurns := hPassage.length_le
    rw [hRest] at hEnd
    exact ⟨c', hRest, by omega, kind_of_itemsEnd hEnd⟩

end Cursor

/--
**Reading ends and stays within the tokens.** At every cursor there is a token, which is
the first one left or the first end mark. From every cursor every production ends at a
cursor, never before the first one; without a mistake it ends further on, and every turn
of the loop over statements does so in any case. So the loop that reads a program stops
at the end mark, after no more turns than there are tokens before it.
-/
theorem parse_progress (ts : List Token) :
    (∀ c : Cursor ts, c.pos < (sealed ts).length ∧
      ((c.left = [] ∧ c.current.kind = .endOfFile ∧ c.current.line = endLineOf ts) ∨
        (∃ rest, c.left = c.current :: rest) ∧ c.current.kind ≠ .endOfFile)) ∧
    (∀ (endLine : Nat) (c : Cursor ts), c.Progress endLine) ∧
    ∃ read : List Item × List Token,
      items (endLineOf ts) false (Cursor.start ts).left = read ∧
      parse ts = ⟨read.1.filterMap Item.stmt?, read.1.flatMap Item.reports⟩ ∧
      read.2 = [] ∧ read.1.length ≤ (beforeEnd ts).length := by
  refine ⟨fun c => ⟨c.pos_lt_length_sealed, c.left_eq⟩, fun _ c => c.progress _, ?_⟩
  refine ⟨_, rfl, rfl, ?_, (passage_parse ts).length_le⟩
  obtain ⟨_, -, -, hNil | ⟨hNested, -⟩⟩ :=
    (@statement_yields_and_exists_passage (endLineOf ts) (beforeEnd ts)).2 false
  · exact hNil
  · cases hNested

end TinyScript.Grammar
