import TinyScript.Proofs.Grammar.Tree
import TinyScript.Proofs.Machine.Faults

/-!
# Faults stand at tokens that they suit

An operator is kept in a tree twice: as the tag that says what it does, and as the token
that a fault is reported at. In a tree of the grammar the two belong together, since the
kind of the token is what the tag was chosen by. So the token of a fault tells something
about its cause. `Cause.kinds` is the table: at tokens of which kinds a run may stop for a
cause. A cause that names a variable stands at a token with that name as its text.

## Main results

* `Cause.message_inj`: what is said about a fault tells its cause.
* `Level.Admits.within_marks`, `Stmt.WellFormedAll.within_marks`: the faults of a tree of
  the grammar stand at its own tokens, which they suit.
-/

namespace TinyScript

open Grammar
open Token (Kind)

namespace Cause

/-- The kinds of the tokens at which a run may stop for a cause. -/
def kinds : Cause → List Kind
  | .operandNotNumber => [.minus]
  | .operandsNotNumbers => [.minus, .star, .slash]
  | .divisionByZero => [.slash]
  | .notAddable => [.plus]
  | .notComparable => [.greater, .greaterEqual, .less, .lessEqual]
  | .uninitialized _ => [.identifier]
  | .undefined _ => [.identifier]
  | .malformed => []

/-- The variable that a cause names. -/
def name? : Cause → Option String
  | .uninitialized name => some name
  | .undefined name => some name
  | _ => none

/-- Whether a run may stop at a token for a cause. -/
def Suits (c : Cause) (t : Token) : Prop :=
  t.kind ∈ c.kinds ∧ ∀ name ∈ c.name?, t.lexeme = name

/-! ## Messages -/

/-- The causes that name no variable. -/
def unnamed : List Cause :=
  [.operandNotNumber, .operandsNotNumbers, .divisionByZero, .notAddable, .notComparable, .malformed]

theorem message_inj_of_mem_unnamed :
    ∀ c ∈ unnamed, ∀ c' ∈ unnamed, c.message = c'.message → c = c' := by
  decide

theorem toList_message_uninitialized (name : String) :
    (uninitialized name).message.toList =
      "Variable '".toList ++ name.toList ++ "' might not have been initialized".toList := by
  have hMessage : (uninitialized name).message =
      "Variable '" ++ name ++ "' might not have been initialized" := rfl
  rw [hMessage, String.toList_append, String.toList_append]

theorem toList_message_undefined (name : String) :
    (undefined name).message.toList =
      "Undefined variable '".toList ++ name.toList ++ "'.".toList := by
  have hMessage : (undefined name).message = "Undefined variable '" ++ name ++ "'." := rfl
  rw [hMessage, String.toList_append, String.toList_append]

/-- The first letter of what is said about a cause. -/
def initial : Cause → Char
  | .uninitialized _ => 'V'
  | .undefined _ => 'U'
  | .divisionByZero => 'A'
  | .malformed => 'C'
  | _ => 'O'

theorem head?_message (c : Cause) : c.message.toList.head? = some c.initial := by
  cases c with
  | uninitialized name =>
      rw [toList_message_uninitialized]
      rfl
  | undefined name =>
      rw [toList_message_undefined]
      rfl
  | _ => rfl

/-- A text between two others can be told from all of them together. -/
theorem eq_of_append_eq {front back : List Char} {s t : String}
    (h : front ++ s.toList ++ back = front ++ t.toList ++ back) : s = t := by
  have hFront := List.append_cancel_right h
  exact String.toList_inj.1 (List.append_cancel_left hFront)

/-- What is said about a cause tells the cause. -/
theorem message_inj {c c' : Cause} (h : c.message = c'.message) : c = c' := by
  have hList : c.message.toList = c'.message.toList := by rw [h]
  have hInitial : some c.initial = some c'.initial := by
    rw [← head?_message, ← head?_message, h]
  cases c with
  | uninitialized name =>
      cases c' with
      | uninitialized name' =>
          rw [toList_message_uninitialized, toList_message_uninitialized] at hList
          rw [eq_of_append_eq hList]
      | _ => simp [initial] at hInitial
  | undefined name =>
      cases c' with
      | undefined name' =>
          rw [toList_message_undefined, toList_message_undefined] at hList
          rw [eq_of_append_eq hList]
      | _ => simp [initial] at hInitial
  | _ =>
      cases c' with
      | uninitialized name' => simp [initial] at hInitial
      | undefined name' => simp [initial] at hInitial
      | _ => exact message_inj_of_mem_unnamed _ (by decide) _ (by decide) h

end Cause

/-! ## Operators -/

/-- The causes of an operator suit the tokens that stand for it. -/
theorem UnaryOp.suits_of_mem_causes {op : UnaryOp} {t : Token} {c : Cause}
    (hKind : UnaryOp.ofKind? t.kind = some op) (hCause : c ∈ op.causes) : c.Suits t := by
  have hTable : ∀ k ∈ Kind.all, ∀ op ∈ UnaryOp.ofKind? k, ∀ c ∈ op.causes,
      k ∈ c.kinds ∧ c.name? = none := by decide
  obtain ⟨hMem, hName⟩ := hTable _ (Kind.mem_all _) op hKind c hCause
  exact ⟨hMem, by simp [hName]⟩

theorem BinaryOp.suits_of_mem_causes {op : BinaryOp} {t : Token} {c : Cause}
    (hKind : BinaryOp.ofKind? t.kind = some op) (hCause : c ∈ op.causes) : c.Suits t := by
  have hTable : ∀ k ∈ Kind.all, ∀ op ∈ BinaryOp.ofKind? k, ∀ c ∈ op.causes,
      k ∈ c.kinds ∧ c.name? = none := by decide
  obtain ⟨hMem, hName⟩ := hTable _ (Kind.mem_all _) op hKind c hCause
  exact ⟨hMem, by simp [hName]⟩

/-! ## Trees -/

/-- The fault stands at a token that is stored in the marks, and suits it. -/
def Fault.Within (f : Fault) (ms : List Mark) : Prop :=
  f.cause.Suits f.token ∧ .stored f.token ∈ ms

theorem Fault.Within.mono {f : Fault} {ms ns : List Mark} (h : f.Within ms) (hSub : ms ⊆ ns) :
    f.Within ns :=
  ⟨h.1, hSub h.2⟩

theorem Fault.within_variable {name : Token} (h : name.kind = .identifier) {f : Fault}
    (hFault : f = ⟨.uninitialized name.lexeme, name⟩ ∨ f = ⟨.undefined name.lexeme, name⟩) :
    f.Within [.stored name] := by
  rcases hFault with rfl | rfl
  · exact ⟨⟨by simp [Cause.kinds, h], by simp [Cause.name?]⟩, by simp⟩
  · exact ⟨⟨by simp [Cause.kinds, h], by simp [Cause.name?]⟩, by simp⟩

/-- What an expression of the grammar blames is one of its own tokens. -/
theorem Grammar.Level.Admits.within_marks {l : Level} {e : Expr} {f : Fault} (h : l.Admits e)
    (hBlames : e.Blames f) : f.Within e.marks := by
  induction e generalizing l with
  | literal v => cases hBlames
  | group inner ih => exact (ih h hBlames).mono (by simp [Expr.marks])
  | unary op operator operand ih =>
      obtain ⟨-, hKind, hOperand⟩ := h
      rcases hBlames with hBlames | ⟨hCause, hToken⟩
      · exact (ih hOperand hBlames).mono (by simp [Expr.marks])
      · rw [Fault.Within, hToken]
        exact ⟨UnaryOp.suits_of_mem_causes hKind hCause, by simp [Expr.marks]⟩
  | binary op operator left right ihLeft ihRight =>
      obtain ⟨-, hKind, hLeft, hRight⟩ := h
      rcases hBlames with hBlames | hBlames | ⟨hCause, hToken⟩
      · exact (ihLeft hLeft hBlames).mono (by simp [Expr.marks])
      · exact (ihRight hRight hBlames).mono (by simp [Expr.marks])
      · rw [Fault.Within, hToken]
        exact ⟨BinaryOp.suits_of_mem_causes hKind hCause, by simp [Expr.marks]⟩
  | conditional condition thenBranch elseBranch ihCondition ihThen ihElse =>
      obtain ⟨-, hCondition, hThen, hElse⟩ := h
      rcases hBlames with hBlames | hBlames | hBlames
      · exact (ihCondition hCondition hBlames).mono (by simp [Expr.marks])
      · exact (ihThen hThen hBlames).mono fun m hm => by simp [Expr.marks, hm]
      · exact (ihElse hElse hBlames).mono fun m hm => by simp [Expr.marks, hm]
  | comma left right ihLeft ihRight =>
      obtain ⟨-, hLeft, hRight⟩ := h
      rcases hBlames with hBlames | hBlames
      · exact (ihLeft hLeft hBlames).mono (by simp [Expr.marks])
      · exact (ihRight hRight hBlames).mono (by simp [Expr.marks])
  | «variable» name => exact Fault.within_variable h hBlames
  | assign name value ih =>
      obtain ⟨-, hName, hValue⟩ := h
      rcases hBlames with hBlames | hFault
      · exact (ih hValue hBlames).mono (by simp [Expr.marks])
      · exact (Fault.within_variable hName (.inr hFault)).mono (by simp [Expr.marks])
  | missing => cases h

theorem Declaration.WellFormed.within_marks {d : Declaration} {f : Fault} (h : d.WellFormed)
    (hBlames : d.Blames f) : f.Within d.marks := by
  obtain ⟨name, init⟩ := d
  obtain ⟨e, he, hBlames⟩ := hBlames
  obtain rfl : init = some e := he
  exact ((h.2 e rfl).within_marks hBlames).mono (by simp [Declaration.marks])

mutual

/-- What a well-formed statement blames is one of its own tokens. -/
theorem Stmt.WellFormed.within_marks {f : Fault} : ∀ {s : Stmt}, s.WellFormed → s.Blames f →
    f.Within s.marks
  | .expression _, h, hBlames => (Level.Admits.within_marks h hBlames).mono (by simp [Stmt.marks])
  | .print _, h, hBlames => (Level.Admits.within_marks h hBlames).mono (by simp [Stmt.marks])
  | .declare _, h, hBlames =>
      (Declaration.WellFormed.within_marks h hBlames).mono (by simp [Stmt.marks])
  | .declareAll _, h, ⟨d, hd, hBlames⟩ =>
      (((h.2 d hd).within_marks hBlames).mono (Declaration.marks_subset_marksAll hd)).mono
        (by simp [Stmt.marks])
  | .block _, h, hBlames => (Stmt.WellFormedAll.within_marks h hBlames).mono (by simp [Stmt.marks])

/-- What well-formed statements blame is one of their own tokens. -/
theorem Stmt.WellFormedAll.within_marks {f : Fault} : ∀ {ss : List Stmt}, Stmt.WellFormedAll ss →
    Stmt.BlamesAny ss f → f.Within (Stmt.marksAll ss)
  | [], _, hBlames => hBlames.elim
  | _ :: _, h, .inl hBlames =>
      (Stmt.WellFormed.within_marks h.1 hBlames).mono (List.subset_append_left _ _)
  | _ :: _, h, .inr hBlames =>
      (Stmt.WellFormedAll.within_marks h.2 hBlames).mono (List.subset_append_right _ _)

end

end TinyScript
