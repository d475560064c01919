import Mathlib.Data.List.Forall2
import TinyScript.Grammar.Level

/-!
# Trees of the grammar and the tokens they stand for

Two views of a program tree, neither of which mentions how a source is read.

The first is the grammar itself. `Level.Admits` says which expressions a level of
the grammar forms: what stands at the root has to bind at least as tightly as the
level asks for, and each child has to be admitted at the level the rule of the root
names for it. `Stmt.WellFormed` does the same for statements. Both can be decided.

The second is the sequence of tokens, in source order, that a tree stands for. A tree
keeps its names and operators whole, of a literal only the value and of punctuation
nothing but its place. So what a tree tells about a token is a `Mark`, and
`Mark.Fits` says which tokens agree with it.

## Main definitions

* `Level.Admits`, `Stmt.WellFormed`: the trees of the grammar.
* `Expr.marks`, `Stmt.marks`: the marks of a tree, in source order.
* `Mark.Fits`: the tokens that agree with a mark.
-/

namespace TinyScript.Grammar

open Token (Kind)

/-! ## Operators and their levels -/

namespace Level

/-- The level whose chains an operator joins. -/
def ofOperator : BinaryOp → Level
  | .eq => .equality
  | .notEq => .equality
  | .greater => .comparison
  | .greaterEq => .comparison
  | .less => .comparison
  | .lessEq => .comparison
  | .add => .term
  | .sub => .term
  | .mul => .factor
  | .div => .factor

/-- The operators of a level are those that the kind of a token stands for anywhere,
restricted to the level. -/
theorem operator?_eq_some_iff {l : Level} {k : Kind} {op : BinaryOp} :
    l.operator? k = some op ↔ BinaryOp.ofKind? k = some op ∧ ofOperator op = l := by
  constructor
  · intro h
    unfold operator? at h
    split at h <;> cases h <;> exact ⟨rfl, rfl⟩
  · rintro ⟨hKind, rfl⟩
    unfold BinaryOp.ofKind? at hKind
    split at hKind <;> cases hKind <;> rfl

/-- A token joins two operands at a level in one of two ways. -/
theorem join?_eq_some_iff {l : Level} {t : Token} {join : Expr → Expr → Expr} :
    l.join? t = some join ↔
      (l = .comma ∧ t.kind = .comma ∧ Expr.comma = join) ∨
        ∃ op, BinaryOp.ofKind? t.kind = some op ∧ ofOperator op = l ∧ Expr.binary op t = join := by
  unfold join?
  by_cases hComma : l = .comma
  · have hOther : ∀ op, ofOperator op ≠ l := by
      intro op
      subst hComma
      cases op <;> decide
    by_cases hKind : t.kind = .comma <;> simp [hComma, hKind, hComma ▸ hOther]
  · simp [hComma, operator?_eq_some_iff, and_assoc]

end Level

/-! ## Expressions of a level -/

/-- Whether an expression is formed by the rules of a level and of the tighter ones.
A placeholder is formed by no rule. -/
def Level.Admits : Level → Expr → Prop
  | _, .literal _ => True
  | _, .variable name => name.kind = .identifier
  | _, .group inner => Level.comma.Admits inner
  | l, .unary op operator operand =>
    Level.unary.rank ≤ l.rank ∧ UnaryOp.ofKind? operator.kind = some op ∧
      Level.unary.Admits operand
  | l, .binary op operator left right =>
    (Level.ofOperator op).rank ≤ l.rank ∧ BinaryOp.ofKind? operator.kind = some op ∧
      (Level.ofOperator op).Admits left ∧ (Level.ofOperator op).tighter.Admits right
  | l, .conditional condition thenBranch elseBranch =>
    Level.conditional.rank ≤ l.rank ∧ Level.equality.Admits condition ∧
      Level.comma.Admits thenBranch ∧ Level.conditional.Admits elseBranch
  | l, .assign name value =>
    Level.assignment.rank ≤ l.rank ∧ name.kind = .identifier ∧ Level.assignment.Admits value
  | l, .comma left right =>
    Level.comma.rank ≤ l.rank ∧ Level.comma.Admits left ∧ Level.assignment.Admits right
  | _, .missing => False

/-- A looser level admits what a tighter one does. -/
theorem Level.Admits.loosen {k l : Level} {e : Expr} (h : k.Admits e) (hRank : k.rank ≤ l.rank) :
    l.Admits e := by
  cases e with
  | literal v => trivial
  | «variable» name => exact h
  | group inner => exact h
  | unary op operator operand => exact ⟨Nat.le_trans h.1 hRank, h.2⟩
  | binary op operator left right => exact ⟨Nat.le_trans h.1 hRank, h.2⟩
  | conditional c a b => exact ⟨Nat.le_trans h.1 hRank, h.2⟩
  | comma left right => exact ⟨Nat.le_trans h.1 hRank, h.2⟩
  | assign name value => exact ⟨Nat.le_trans h.1 hRank, h.2⟩
  | missing => exact h

/-- Decides whether a level admits an expression, child by child. -/
def Level.decideAdmits : (l : Level) → (e : Expr) → Decidable (l.Admits e)
  | _, .literal _ => isTrue trivial
  | _, .variable name => inferInstanceAs (Decidable (name.kind = .identifier))
  | _, .group inner => Level.comma.decideAdmits inner
  | l, .unary op operator operand =>
    have := Level.unary.decideAdmits operand
    inferInstanceAs (Decidable (Level.unary.rank ≤ l.rank ∧
      UnaryOp.ofKind? operator.kind = some op ∧ Level.unary.Admits operand))
  | l, .binary op operator left right =>
    have := (Level.ofOperator op).decideAdmits left
    have := (Level.ofOperator op).tighter.decideAdmits right
    inferInstanceAs (Decidable ((Level.ofOperator op).rank ≤ l.rank ∧
      BinaryOp.ofKind? operator.kind = some op ∧
      (Level.ofOperator op).Admits left ∧ (Level.ofOperator op).tighter.Admits right))
  | l, .conditional condition thenBranch elseBranch =>
    have := Level.equality.decideAdmits condition
    have := Level.comma.decideAdmits thenBranch
    have := Level.conditional.decideAdmits elseBranch
    inferInstanceAs (Decidable (Level.conditional.rank ≤ l.rank ∧
      Level.equality.Admits condition ∧ Level.comma.Admits thenBranch ∧
      Level.conditional.Admits elseBranch))
  | l, .assign name value =>
    have := Level.assignment.decideAdmits value
    inferInstanceAs (Decidable (Level.assignment.rank ≤ l.rank ∧ name.kind = .identifier ∧
      Level.assignment.Admits value))
  | l, .comma left right =>
    have := Level.comma.decideAdmits left
    have := Level.assignment.decideAdmits right
    inferInstanceAs (Decidable (Level.comma.rank ≤ l.rank ∧ Level.comma.Admits left ∧
      Level.assignment.Admits right))
  | _, .missing => isFalse id

instance (l : Level) (e : Expr) : Decidable (l.Admits e) :=
  l.decideAdmits e

/-! ## Marks -/

/-- What a tree tells about a token that it stands for. -/
inductive Mark where
  /-- Punctuation or a word of a statement, of which only the kind is known. -/
  | fixed (kind : Kind)
  /-- A literal, of which only the value is known. -/
  | literal (value : Value)
  /-- A name or an operator, which is known whole. -/
  | stored (t : Token)

/-- Whether a token is a literal of the given value. -/
def IsLiteral (t : Token) : Value → Prop
  | .number x => t.kind = .number ∧ t.payload = some (.number x)
  | .text s => t.kind = .text ∧ t.payload = some (.text s)
  | .bool b => t.kind = if b then .kwTrue else .kwFalse
  | .nil => t.kind = .kwNil

/-- Whether a token agrees with what a tree tells about it. -/
def Mark.Fits : Mark → Token → Prop
  | .fixed kind, t => t.kind = kind
  | .literal v, t => IsLiteral t v
  | .stored u, t => t = u

/-- The reading of literals finds exactly the literals of a value. -/
theorem literal?_eq_some_iff {t : Token} {v : Value} : literal? t = some v ↔ IsLiteral t v := by
  constructor
  · intro h
    unfold literal? at h
    split at h <;> cases h <;> simp_all [IsLiteral]
  · intro h
    cases v with
    | number x => simp [literal?, h.1, h.2]
    | text s => simp [literal?, h.1, h.2]
    | bool b => cases b <;> simp_all [IsLiteral, literal?]
    | nil => simp_all [IsLiteral, literal?]

end TinyScript.Grammar

namespace TinyScript

open Grammar

/-- The marks of an expression. A placeholder stands for no token. -/
def Expr.marks : Expr → List Mark
  | .literal v => [.literal v]
  | .variable name => [.stored name]
  | .group inner => .fixed .leftParen :: (inner.marks ++ [.fixed .rightParen])
  | .unary _ operator operand => .stored operator :: operand.marks
  | .binary _ operator left right => left.marks ++ .stored operator :: right.marks
  | .conditional condition thenBranch elseBranch =>
    condition.marks ++ .fixed .question :: (thenBranch.marks ++ .fixed .colon :: elseBranch.marks)
  | .assign name value => .stored name :: .fixed .equal :: value.marks
  | .comma left right => left.marks ++ .fixed .comma :: right.marks
  | .missing => []

namespace Declaration

/-- Whether a declared name is a name, and its initial value an assignment expression. -/
def WellFormed (d : Declaration) : Prop :=
  d.name.kind = .identifier ∧ ∀ e ∈ d.initializer, Level.assignment.Admits e

instance (d : Declaration) : Decidable d.WellFormed :=
  inferInstanceAs (Decidable (_ ∧ _))

/-- The marks of a declared name with its initial value. -/
def marks (d : Declaration) : List Mark :=
  .stored d.name ::
    match d.initializer with
    | none => []
    | some e => .fixed .equal :: e.marks

/-- The marks of declared names, with commas between them. -/
def marksAll : List Declaration → List Mark
  | [] => []
  | [d] => d.marks
  | d :: rest => d.marks ++ .fixed .comma :: marksAll rest

theorem marks_subset_marksAll {d : Declaration} {ds : List Declaration} (h : d ∈ ds) :
    d.marks ⊆ marksAll ds := by
  induction ds with
  | nil => cases h
  | cons d' rest ih =>
      cases rest with
      | nil =>
          rw [List.mem_singleton.1 h]
          exact List.Subset.refl _
      | cons d'' rest =>
          show d.marks ⊆ d'.marks ++ .fixed .comma :: marksAll (d'' :: rest)
          rcases List.mem_cons.1 h with rfl | hMem
          · exact List.subset_append_left _ _
          · exact fun m hm => by simp [ih hMem hm]

end Declaration

namespace Stmt

mutual

/-- Whether a statement is formed by the rules of the grammar, at every depth. -/
def WellFormed : Stmt → Prop
  | .expression e => Level.comma.Admits e
  | .print e => Level.comma.Admits e
  | .declare d => d.WellFormed
  | .declareAll ds => 2 ≤ ds.length ∧ ∀ d ∈ ds, d.WellFormed
  | .block body => WellFormedAll body

/-- Whether all statements of a list are formed by the rules of the grammar. -/
def WellFormedAll : List Stmt → Prop
  | [] => True
  | s :: rest => s.WellFormed ∧ WellFormedAll rest

end

mutual

/-- Decides whether a statement is well formed. -/
def decideWellFormed : (s : Stmt) → Decidable s.WellFormed
  | .expression e => inferInstanceAs (Decidable (Level.comma.Admits e))
  | .print e => inferInstanceAs (Decidable (Level.comma.Admits e))
  | .declare d => inferInstanceAs (Decidable d.WellFormed)
  | .declareAll ds => inferInstanceAs (Decidable (2 ≤ ds.length ∧ ∀ d ∈ ds, d.WellFormed))
  | .block body => decideWellFormedAll body

/-- Decides whether all statements of a list are well formed. -/
def decideWellFormedAll : (ss : List Stmt) → Decidable (WellFormedAll ss)
  | [] => isTrue trivial
  | s :: rest =>
    have := decideWellFormed s
    have := decideWellFormedAll rest
    inferInstanceAs (Decidable (s.WellFormed ∧ WellFormedAll rest))

end

instance (s : Stmt) : Decidable s.WellFormed :=
  decideWellFormed s

theorem wellFormedAll_iff {ss : List Stmt} : WellFormedAll ss ↔ ∀ s ∈ ss, s.WellFormed := by
  induction ss with
  | nil => simp [WellFormedAll]
  | cons s rest ih => simp [WellFormedAll, ih]

mutual

/-- The marks of a statement. -/
def marks : Stmt → List Mark
  | .expression e => e.marks ++ [.fixed .semicolon]
  | .print e => .fixed .kwPrint :: (e.marks ++ [.fixed .semicolon])
  | .declare d => .fixed .kwVar :: (d.marks ++ [.fixed .semicolon])
  | .declareAll ds => .fixed .kwVar :: (Declaration.marksAll ds ++ [.fixed .semicolon])
  | .block body => .fixed .leftBrace :: (marksAll body ++ [.fixed .rightBrace])

/-- The marks of statements, one after the other. -/
def marksAll : List Stmt → List Mark
  | [] => []
  | s :: rest => s.marks ++ marksAll rest

end

end Stmt

end TinyScript
