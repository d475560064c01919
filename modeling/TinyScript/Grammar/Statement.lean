import TinyScript.Grammar.Expression
import TinyScript.Grammar.Recovery

/-!
# Reading statements

A program is read as a list of items. An item is one statement, or a gap where a
statement had to be dropped, with the mistakes reported on the way. A statement is
dropped when a mistake stopped it or when something inside it is missing; an invalid
assignment target alone does not drop it. A block with a gap in it is dropped as a
whole.

`statementWithin` and `itemsWithin` are the recursion; the equations of `statement` and
`items` are the API, and `parse` reads a whole program.
-/

namespace TinyScript.Grammar

open Diagnostic (Mistake)

/-! ## Simple statements -/

/-- Reads the semicolon that ends a statement. -/
def terminated (s : Stmt) (m : Mistake) (endLine : Nat) (ts : List Token) : Reading Stmt :=
  (expect .semicolon m endLine ts).map fun _ => s

/-- Reads the initial value of a declared name, if there is one. -/
def initializer (endLine : Nat) (name : Token) (ts : List Token) : Reading Declaration :=
  match ts with
  | [] => .done ⟨name, none⟩ []
  | t :: rest =>
    if t.kind = .equal then
      (expr endLine .assignment rest).map fun e => ⟨name, some e⟩
    else
      .done ⟨name, none⟩ (t :: rest)

/-- Reads a name and its initial value. -/
def declarator (endLine : Nat) (ts : List Token) : Reading Declaration :=
  (expect .identifier .noVariableName endLine ts).bind fun name rest =>
    initializer endLine name rest

/-- Composition never adds tokens if its parts do not. -/
theorem Reading.length_bind {α β : Type} {r : Reading α} {f : α → List Token → Reading β}
    {n : Nat} (hFirst : r.rest.length ≤ n) (hNext : ∀ a ts, (f a ts).rest.length ≤ ts.length) :
    (r.bind f).rest.length ≤ n := by
  unfold Reading.bind
  split
  · exact Nat.le_trans (hNext _ _) hFirst
  · exact hFirst

theorem length_initializer (endLine : Nat) (name : Token) (ts : List Token) :
    (initializer endLine name ts).rest.length ≤ ts.length := by
  unfold initializer
  split
  · exact Nat.le_refl _
  · split
    · rw [Reading.rest_map]
      exact Nat.le_succ_of_le (length_expr ..)
    · exact Nat.le_refl _

theorem length_declarator (endLine : Nat) (ts : List Token) :
    (declarator endLine ts).rest.length ≤ ts.length :=
  Reading.length_bind (length_expect ..) fun _ _ => length_initializer ..

/-- Reads names with their initial values, separated by commas. -/
def declaratorsWithin (endLine : Nat) (ts : List Token) : Within ts (List Declaration) :=
  let first : Within ts Declaration := ⟨declarator endLine ts, length_declarator ..⟩
  first.bind fun d rest _ =>
    match rest with
    | [] => .done [d] []
    | t :: after =>
      if t.kind = .comma then
        .behind t <| (declaratorsWithin endLine after).bind fun ds left _ => .done (d :: ds) left
      else
        .done [d] (t :: after)
termination_by ts.length
decreasing_by
  simp only [List.length_cons] at *
  omega

/-- Reads names with their initial values, separated by commas. -/
def declarators (endLine : Nat) (ts : List Token) : Reading (List Declaration) :=
  (declaratorsWithin endLine ts).val

theorem length_declarators (endLine : Nat) (ts : List Token) :
    (declarators endLine ts).rest.length ≤ ts.length :=
  (declaratorsWithin endLine ts).property

theorem declarators_eq (endLine : Nat) (ts : List Token) :
    declarators endLine ts =
      (declarator endLine ts).bind fun d rest =>
        match rest with
        | [] => .done [d] []
        | t :: after =>
          if t.kind = .comma then
            (declarators endLine after).bind fun ds left => .done (d :: ds) left
          else
            .done [d] (t :: after) := by
  rw [declarators, declaratorsWithin]
  refine Within.val_bind _ _ _ fun d rest hRest => ?_
  cases rest with
  | nil => rfl
  | cons t after =>
    by_cases h : t.kind = .comma
    · simp only [h, if_true, Within.val_behind]
      exact Within.val_bind _ _ _ fun _ _ _ => rfl
    · simp only [h, if_false]
      rfl

/-- The statement that declares the given names: one name stands by itself. -/
def declaring : List Declaration → Stmt
  | [d] => .declare d
  | ds => .declareAll ds

/-- Reads a declaration whose `var` has been read. -/
def declarationStatement (endLine : Nat) (ts : List Token) : Reading Stmt :=
  (declarators endLine ts).bind fun ds rest =>
    terminated (declaring ds) .noSemicolonAfterDeclaration endLine rest

/-- Reads a print statement whose `print` has been read. -/
def printStatement (endLine : Nat) (ts : List Token) : Reading Stmt :=
  (expr endLine .comma ts).bind fun e rest =>
    terminated (.print e) .noSemicolonAfterValue endLine rest

/-- Reads an expression statement. -/
def expressionStatement (endLine : Nat) (ts : List Token) : Reading Stmt :=
  (expr endLine .comma ts).bind fun e rest =>
    terminated (.expression e) .noSemicolonAfterExpression endLine rest

/-! ## Progress -/

/-- A reading that never adds tokens, and reads at least one if nothing stops it. -/
def Reading.Advances {α : Type} (r : Reading α) (n : Nat) : Prop :=
  r.rest.length ≤ n ∧ ∀ a, r.outcome = .ok a → r.rest.length < n

theorem Reading.Advances.mono {α : Type} {r : Reading α} {m n : Nat} (h : r.Advances m)
    (hLe : m ≤ n) : r.Advances n :=
  ⟨Nat.le_trans h.1 hLe, fun a hOk => Nat.lt_of_lt_of_le (h.2 a hOk) hLe⟩

theorem Reading.advances_of_lt {α : Type} {r : Reading α} {n : Nat} (h : r.rest.length < n) :
    r.Advances n :=
  ⟨Nat.le_of_lt h, fun _ _ => h⟩

theorem advances_terminated (s : Stmt) (m : Mistake) (endLine : Nat) (ts : List Token) :
    (terminated s m endLine ts).Advances ts.length := by
  unfold terminated expect
  split
  · split
    · exact Reading.advances_of_lt (Nat.lt_succ_self _)
    · exact ⟨Nat.le_refl _, fun a h => by cases h⟩
  · exact ⟨Nat.le_refl _, fun a h => by cases h⟩

theorem Reading.advances_bind {α β : Type} {r : Reading α} {f : α → List Token → Reading β}
    {n : Nat} (hFirst : r.rest.length ≤ n) (hNext : ∀ a ts, (f a ts).Advances ts.length) :
    (r.bind f).Advances n := by
  unfold Reading.bind
  split
  · exact (hNext _ _).mono hFirst
  · exact ⟨hFirst, fun a h => by cases h⟩

theorem advances_declarationStatement (endLine : Nat) (ts : List Token) :
    (declarationStatement endLine ts).Advances ts.length :=
  Reading.advances_bind (length_declarators ..) fun _ _ => advances_terminated ..

theorem advances_printStatement (endLine : Nat) (ts : List Token) :
    (printStatement endLine ts).Advances ts.length :=
  Reading.advances_bind (length_expr ..) fun _ _ => advances_terminated ..

theorem advances_expressionStatement (endLine : Nat) (ts : List Token) :
    (expressionStatement endLine ts).Advances ts.length :=
  Reading.advances_bind (length_expr ..) fun _ _ => advances_terminated ..

/-! ## Items -/

/-- A statement or the gap it leaves, with the mistakes reported on the way. -/
structure Item where
  stmt? : Option Stmt
  reports : List Diagnostic

/-- What becomes of a statement, and the tokens after it. -/
def settle (r : Reading Stmt) : Item × List Token :=
  match r.outcome with
  | .ok s => (⟨if r.damaged then none else some s, r.reports⟩, r.rest)
  | .error d => (⟨none, r.reports ++ [d]⟩, synchronize r.rest)

/-- Settling a statement leaves fewer tokens than there were. -/
theorem length_settle {r : Reading Stmt} {n : Nat} (h : r.Advances n) (hPos : 0 < n) :
    (settle r).2.length < n := by
  unfold settle
  split
  · next s hOk => exact h.2 s hOk
  · exact length_synchronize_lt h.1 hPos

/-- Reads the closing brace of a block. -/
def closeBlock (endLine : Nat) (body : List Item) (ts : List Token) : Reading Stmt :=
  let closed := (expect .rightBrace .noBraceAfterBlock endLine ts).map fun _ =>
    Stmt.block (body.filterMap Item.stmt?)
  { closed with
    reports := body.flatMap Item.reports
    damaged := body.any fun item => item.stmt?.isNone }

theorem length_closeBlock (endLine : Nat) (body : List Item) (ts : List Token) :
    (closeBlock endLine body ts).rest.length ≤ ts.length := by
  simp only [closeBlock, Reading.rest_map]
  exact length_expect ..

mutual

/-- Reads a statement or a declaration. -/
def statementWithin (endLine : Nat) (ts : List Token) :
    { r : Reading Stmt // r.Advances ts.length } :=
  match ts with
  | [] => ⟨expressionStatement endLine [], advances_expressionStatement ..⟩
  | t :: rest =>
    if t.kind = .kwVar then
      ⟨declarationStatement endLine rest,
        (advances_declarationStatement ..).mono (Nat.le_succ _)⟩
    else if t.kind = .kwPrint then
      ⟨printStatement endLine rest, (advances_printStatement ..).mono (Nat.le_succ _)⟩
    else if t.kind = .leftBrace then
      let body := itemsWithin endLine true [] rest
      ⟨closeBlock endLine body.val.1 body.val.2, Reading.advances_of_lt
        (Nat.lt_succ_of_le (Nat.le_trans (length_closeBlock ..) body.property))⟩
    else
      ⟨expressionStatement endLine (t :: rest), advances_expressionStatement ..⟩
termination_by (ts.length, 0)

/--
Reads items up to the end or, inside a block, up to a closing brace; they come after
the items in `acc`, which holds the last one first.
-/
def itemsWithin (endLine : Nat) (nested : Bool) (acc : List Item) (ts : List Token) :
    { p : List Item × List Token // p.2.length ≤ ts.length } :=
  match ts with
  | [] => ⟨(acc.reverse, []), Nat.le_refl _⟩
  | t :: rest =>
    if nested ∧ t.kind = .rightBrace then
      ⟨(acc.reverse, t :: rest), Nat.le_refl _⟩
    else
      let r := statementWithin endLine (t :: rest)
      have hSettle : (settle r.val).2.length < (t :: rest).length :=
        length_settle r.property (Nat.zero_lt_succ _)
      let more := itemsWithin endLine nested ((settle r.val).1 :: acc) (settle r.val).2
      ⟨more.val, Nat.le_trans more.property (Nat.le_of_lt hSettle)⟩
termination_by (ts.length, 1)

end

/-- Reads a statement or a declaration. -/
def statement (endLine : Nat) (ts : List Token) : Reading Stmt :=
  (statementWithin endLine ts).val

/-- Reads items up to the end or, inside a block, up to a closing brace. -/
def items (endLine : Nat) (nested : Bool) (ts : List Token) : List Item × List Token :=
  (itemsWithin endLine nested [] ts).val

/-! ## Equations -/

variable {endLine : Nat}

/-- A statement is settled with fewer tokens left than there were. -/
theorem length_settle_statement (t : Token) (rest : List Token) :
    (settle (statement endLine (t :: rest))).2.length < (t :: rest).length :=
  length_settle (statementWithin endLine (t :: rest)).property (Nat.zero_lt_succ _)

theorem statement_nil : statement endLine [] = expressionStatement endLine [] := by
  rw [statement, statementWithin]

theorem statement_cons (t : Token) (rest : List Token) :
    statement endLine (t :: rest) =
      if t.kind = .kwVar then declarationStatement endLine rest
      else if t.kind = .kwPrint then printStatement endLine rest
      else if t.kind = .leftBrace then
        closeBlock endLine (items endLine true rest).1 (items endLine true rest).2
      else expressionStatement endLine (t :: rest) := by
  rw [statement, statementWithin]
  split
  · rfl
  · split
    · rfl
    · split <;> rfl

/-- The items read so far only stand in front of the others. -/
theorem itemsWithin_val (nested : Bool) (acc : List Item) (ts : List Token) :
    (itemsWithin endLine nested acc ts).val =
      (acc.reverse ++ (items endLine nested ts).1, (items endLine nested ts).2) := by
  obtain ⟨n, hLength⟩ : ∃ n, ts.length = n := ⟨_, rfl⟩
  induction n using Nat.strongRecOn generalizing acc ts with
  | ind n ih =>
    cases ts with
    | nil => simp [items, itemsWithin]
    | cons t rest =>
      have hSettle := @length_settle_statement endLine t rest
      rw [hLength] at hSettle
      simp only [statement] at hSettle
      rw [items, itemsWithin, itemsWithin]
      split
      · simp
      · simp only
        rw [ih _ hSettle _ _ rfl, ih _ hSettle [_] _ rfl]
        simp

theorem items_nil (nested : Bool) : items endLine nested [] = ([], []) := by
  rw [items, itemsWithin]
  rfl

theorem items_cons (nested : Bool) (t : Token) (rest : List Token) :
    items endLine nested (t :: rest) =
      if nested ∧ t.kind = .rightBrace then ([], t :: rest)
      else
        let step := settle (statement endLine (t :: rest))
        (step.1 :: (items endLine nested step.2).1, (items endLine nested step.2).2) := by
  rw [items, itemsWithin]
  split
  · rfl
  · exact itemsWithin_val nested [_] _

/-! ## Programs -/

/-- What reading a program gives. -/
structure Parsed where
  program : List Stmt
  diagnostics : List Diagnostic

/-- The line of the end mark, or of the last token if there is no end mark. -/
def endLineOf (ts : List Token) : Nat :=
  match ts.find? (·.kind = .endOfFile) with
  | some mark => mark.line
  | none => (ts.getLast?.map Token.line).getD 1

/-- The tokens before the end mark. -/
def beforeEnd (ts : List Token) : List Token :=
  ts.takeWhile (·.kind ≠ .endOfFile)

/-- Reads the program that comes before the first end mark. -/
def parse (ts : List Token) : Parsed :=
  let body := (items (endLineOf ts) false (beforeEnd ts)).1
  ⟨body.filterMap Item.stmt?, body.flatMap Item.reports⟩

end TinyScript.Grammar
