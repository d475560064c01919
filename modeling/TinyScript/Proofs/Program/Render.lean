import TinyScript.Program.Render
import TinyScript.Proofs.Grammar.Tree
import TinyScript.Proofs.Number.Literal
import TinyScript.Proofs.Program.Form
import TinyScript.Proofs.Program.Lines

/-!
# The text of a tree identifies it

The text of a tree is that of a form: the word for what stands at its root in front, its parts
behind it. If the names and operators of the tree are tokens of a source (`Stmt.Lexed`), the
words of the form are words, so the text tells the form.

The form in turn tells the tree. Negation and subtraction share a symbol but not the number of
their parts, and no other two rules share a word. A word by itself is a number if it begins with
a digit, one of three literals if it is reserved, and a name otherwise. Only the lines of
tokens are not shown: an operator is written in one way, so its token is known by its symbol.

## Main results

* `Stmt.toList_renderBy`: the text of a tree is that of its form.
* `Stmt.WellFormedAll.lexed`: the marks of a tree tell whether its tokens are those of a source.
* `Expr.mapLine_eq_of_form_eq`, `Stmt.mapLine_eq_of_form_eq`: the form of a tree tells the tree.
* `Stmt.mapLineAll_eq_of_render_eq`: so do the texts of statements.
-/

namespace TinyScript

open Grammar

/-! ## Trees as forms -/

/-- The form of a literal: only strings are quoted. -/
def Value.form : Value → Form
  | .number x => .word (Number.literal x)
  | .text s => .quoted s
  | .bool b => .word (boolText b)
  | .nil => .word "nil"

/-- The form of an expression. -/
def Expr.form : Expr → Form
  | .literal value => value.form
  | .group inner => .node "group" [inner.form]
  | .unary op _ operand => .node op.symbol [operand.form]
  | .binary op _ left right => .node op.symbol [left.form, right.form]
  | .conditional condition thenBranch elseBranch =>
    .node "?:" [condition.form, thenBranch.form, elseBranch.form]
  | .comma left right => .node "," [left.form, right.form]
  | .variable name => .word name.lexeme
  | .assign name value => .node "=" [.word name.lexeme, value.form]
  | .missing => .word "<error>"

/-- The form of a declared name. -/
def Declaration.form (d : Declaration) : Form :=
  .node "var" (.word d.name.lexeme :: (d.initializer.map Expr.form).toList)

mutual

/-- The form of a statement. -/
def Stmt.form : Stmt → Form
  | .expression e => .node ";" [e.form]
  | .print e => .node "print" [e.form]
  | .declare d => d.form
  | .declareAll ds => .node "vars" (ds.map Declaration.form)
  | .block body => .node "block" (Stmt.formAll body)

/-- The forms of statements. -/
def Stmt.formAll : List Stmt → List Form
  | [] => []
  | s :: rest => s.form :: Stmt.formAll rest

end

section Text

variable (visible : Char → Bool)

theorem Value.toList_literalBy (v : Value) :
    (v.literalBy visible).toList = v.form.chars visible := by
  cases v with
  | text s => exact String.toList_ofList
  | number x => rfl
  | bool b => rfl
  | nil => rfl

theorem Expr.toList_renderBy (e : Expr) : (e.renderBy visible).toList = e.form.chars visible := by
  induction e with
  | literal v => exact v.toList_literalBy visible
  | group inner ih => simp [renderBy, form, Form.chars, Form.charsAll, ih]
  | unary op operator operand ih => simp [renderBy, form, Form.chars, Form.charsAll, ih]
  | binary op operator left right ihLeft ihRight =>
      simp [renderBy, form, Form.chars, Form.charsAll, ihLeft, ihRight]
  | conditional condition thenBranch elseBranch ihCondition ihThen ihElse =>
      simp [renderBy, form, Form.chars, Form.charsAll, ihCondition, ihThen, ihElse]
  | comma left right ihLeft ihRight =>
      simp [renderBy, form, Form.chars, Form.charsAll, ihLeft, ihRight]
  | «variable» name => rfl
  | assign name value ih => simp [renderBy, form, Form.chars, Form.charsAll, ih]
  | missing => rfl

theorem Declaration.toList_renderBy (d : Declaration) :
    (d.renderBy visible).toList = d.form.chars visible := by
  obtain ⟨name, initializer⟩ := d
  cases initializer with
  | none => simp [renderBy, form, Form.chars, Form.charsAll]
  | some e => simp [renderBy, form, Form.chars, Form.charsAll, e.toList_renderBy]

theorem Declaration.toList_foldl_renderBy (ds : List Declaration) (text : String) :
    (ds.foldl (fun text d => text ++ " " ++ d.renderBy visible) text).toList =
      text.toList ++ Form.charsAll visible (ds.map Declaration.form) := by
  induction ds generalizing text with
  | nil => simp [Form.charsAll]
  | cons d ds ih => simp [ih, Form.charsAll, d.toList_renderBy]

mutual

theorem Stmt.toList_renderBy : ∀ s : Stmt, (s.renderBy visible).toList = s.form.chars visible
  | .expression e => by simp [renderBy, form, Form.chars, Form.charsAll, e.toList_renderBy]
  | .print e => by simp [renderBy, form, Form.chars, Form.charsAll, e.toList_renderBy]
  | .declare d => d.toList_renderBy visible
  | .declareAll ds => by
      simp [renderBy, form, Form.chars, Declaration.toList_foldl_renderBy]
  | .block body => by
      simp [renderBy, form, Form.chars, Stmt.toList_renderAllBy body]

theorem Stmt.toList_renderAllBy : ∀ (ss : List Stmt) (text : String),
    (Stmt.renderAllBy visible text ss).toList =
      text.toList ++ Form.charsAll visible (Stmt.formAll ss)
  | [], text => by simp [renderAllBy, formAll, Form.charsAll]
  | s :: rest, text => by
      simp [renderAllBy, formAll, Form.charsAll, Stmt.toList_renderAllBy rest, s.toList_renderBy]

end

end Text

/-- What tells elements apart tells lists apart, one by one. -/
theorem map_eq_of_map_eq {α β γ : Type} {f : α → β} {g : α → γ} {P : α → Prop}
    (hStep : ∀ {a a'}, P a → P a' → f a = f a' → g a = g a') {as as' : List α}
    (h : ∀ a ∈ as, P a) (h' : ∀ a ∈ as', P a) (hMap : as.map f = as'.map f) :
    as.map g = as'.map g := by
  induction as generalizing as' with
  | nil =>
      cases as' with
      | nil => rfl
      | cons a' as' => cases hMap
  | cons a as ih =>
      cases as' with
      | nil => cases hMap
      | cons a' as' =>
          obtain ⟨ha, has⟩ := List.forall_mem_cons.1 h
          obtain ⟨ha', has'⟩ := List.forall_mem_cons.1 h'
          obtain ⟨hFirst, hOthers⟩ := List.cons.inj hMap
          rw [List.map_cons, List.map_cons, hStep ha ha' hFirst, ih has has' hOthers]

/-! ## Trees that a source writes out -/

/-- Whether a token is one that a source can have. -/
def Token.Lexed (t : Token) : Prop :=
  Source.Lexeme t.kind t.lexeme.toList t.payload

/-- Whether a value is one that a source can write out: no number has a sign. Infinity is
left out, since what is shown for it could be a name. -/
def Value.Lexed : Value → Prop
  | .number x => x.isFinite = true ∧ Number.isNegative x = false
  | _ => True

/-- Whether an expression has no placeholder, and its tokens and values are those of a source. -/
def Expr.Lexed : Expr → Prop
  | .literal value => value.Lexed
  | .group inner => inner.Lexed
  | .unary op operator operand =>
    (UnaryOp.ofKind? operator.kind = some op ∧ operator.Lexed) ∧ operand.Lexed
  | .binary op operator left right =>
    (BinaryOp.ofKind? operator.kind = some op ∧ operator.Lexed) ∧ left.Lexed ∧ right.Lexed
  | .conditional condition thenBranch elseBranch =>
    condition.Lexed ∧ thenBranch.Lexed ∧ elseBranch.Lexed
  | .comma left right => left.Lexed ∧ right.Lexed
  | .variable name => name.kind = .identifier ∧ name.Lexed
  | .assign name value => (name.kind = .identifier ∧ name.Lexed) ∧ value.Lexed
  | .missing => False

/-- Whether a declared name and its initial value are those of a source. -/
def Declaration.Lexed (d : Declaration) : Prop :=
  (d.name.kind = .identifier ∧ d.name.Lexed) ∧ ∀ e ∈ d.initializer, e.Lexed

mutual

/-- Whether everything in a statement is as a source can write it out. -/
def Stmt.Lexed : Stmt → Prop
  | .expression e => e.Lexed
  | .print e => e.Lexed
  | .declare d => d.Lexed
  | .declareAll ds => ∀ d ∈ ds, d.Lexed
  | .block body => Stmt.LexedAll body

/-- Whether everything in a list of statements is as a source can write it out. -/
def Stmt.LexedAll : List Stmt → Prop
  | [] => True
  | s :: rest => s.Lexed ∧ Stmt.LexedAll rest

end

/-- Whether what a tree tells about a token is as a source can write it out. -/
def Grammar.Mark.Lexed : Mark → Prop
  | .fixed _ => True
  | .literal v => v.Lexed
  | .stored t => t.Lexed

/-- Trees of the grammar are known to be lexed by their marks. -/
theorem Grammar.Level.Admits.lexed {e : Expr} {l : Level} (h : l.Admits e)
    (hMarks : ∀ m ∈ e.marks, m.Lexed) : e.Lexed := by
  induction e generalizing l with
  | literal v => exact hMarks _ List.mem_cons_self
  | «variable» name => exact ⟨h, hMarks _ List.mem_cons_self⟩
  | group inner ih =>
      simp only [Expr.marks, List.forall_mem_cons, List.forall_mem_append] at hMarks
      exact ih h hMarks.2.1
  | unary op operator operand ih =>
      simp only [Expr.marks, List.forall_mem_cons] at hMarks
      exact ⟨⟨h.2.1, hMarks.1⟩, ih h.2.2 hMarks.2⟩
  | binary op operator left right ihLeft ihRight =>
      simp only [Expr.marks, List.forall_mem_cons, List.forall_mem_append] at hMarks
      exact ⟨⟨h.2.1, hMarks.2.1⟩, ihLeft h.2.2.1 hMarks.1, ihRight h.2.2.2 hMarks.2.2⟩
  | conditional condition thenBranch elseBranch ihCondition ihThen ihElse =>
      simp only [Expr.marks, List.forall_mem_cons, List.forall_mem_append] at hMarks
      exact ⟨ihCondition h.2.1 hMarks.1, ihThen h.2.2.1 hMarks.2.2.1,
        ihElse h.2.2.2 hMarks.2.2.2.2⟩
  | assign name value ih =>
      simp only [Expr.marks, List.forall_mem_cons] at hMarks
      exact ⟨⟨h.2.1, hMarks.1⟩, ih h.2.2 hMarks.2.2⟩
  | comma left right ihLeft ihRight =>
      simp only [Expr.marks, List.forall_mem_cons, List.forall_mem_append] at hMarks
      exact ⟨ihLeft h.2.1 hMarks.1, ihRight h.2.2 hMarks.2.2⟩
  | missing => exact h

theorem Declaration.WellFormed.lexed {d : Declaration} (h : d.WellFormed)
    (hMarks : ∀ m ∈ d.marks, m.Lexed) : d.Lexed := by
  obtain ⟨name, initializer⟩ := d
  obtain ⟨hName, hInitializer⟩ := h
  simp only [marks, List.forall_mem_cons] at hMarks
  refine ⟨⟨hName, hMarks.1⟩, fun e he => ?_⟩
  cases he
  exact (hInitializer e rfl).lexed fun m hm => hMarks.2 m (List.mem_cons_of_mem _ hm)

mutual

theorem Stmt.WellFormed.lexed : ∀ {s : Stmt}, s.WellFormed → (∀ m ∈ s.marks, m.Lexed) → s.Lexed
  | .expression e, h, hMarks => by
      simp only [marks, List.forall_mem_append] at hMarks
      exact Level.Admits.lexed h hMarks.1
  | .print e, h, hMarks => by
      simp only [marks, List.forall_mem_cons, List.forall_mem_append] at hMarks
      exact Level.Admits.lexed h hMarks.2.1
  | .declare d, h, hMarks => by
      simp only [marks, List.forall_mem_cons, List.forall_mem_append] at hMarks
      exact Declaration.WellFormed.lexed h hMarks.2.1
  | .declareAll ds, h, hMarks => by
      simp only [marks, List.forall_mem_cons, List.forall_mem_append] at hMarks
      intro d hd
      exact (h.2 d hd).lexed fun m hm => hMarks.2.1 m (Declaration.marks_subset_marksAll hd hm)
  | .block body, h, hMarks => by
      simp only [marks, List.forall_mem_cons, List.forall_mem_append] at hMarks
      exact Stmt.WellFormedAll.lexed h hMarks.2.1

theorem Stmt.WellFormedAll.lexed : ∀ {ss : List Stmt}, Stmt.WellFormedAll ss →
    (∀ m ∈ Stmt.marksAll ss, m.Lexed) → Stmt.LexedAll ss
  | [], _, _ => trivial
  | s :: rest, h, hMarks => by
      simp only [marksAll, List.forall_mem_append] at hMarks
      exact ⟨h.1.lexed hMarks.1, h.2.lexed hMarks.2⟩

end

/-! ## Names and operators -/

namespace Token

variable {t t' : Token} {line : Nat}

theorem isWord_lexeme (h : t.kind = .identifier ∧ t.Lexed) : Form.IsWord t.lexeme := by
  obtain ⟨hKind, hLexed⟩ := h
  rw [Lexed, hKind] at hLexed
  obtain ⟨-, -, c, ds, hText, hStart, hParts⟩ := hLexed.exists_name
  rw [Form.IsWord, hText]
  refine ⟨by simp, ?_, ?_⟩
  · rw [List.head?_cons, ne_eq, Option.some.injEq]
    rintro rfl
    exact absurd hStart (by decide)
  · intro d hd
    have hPart : Source.Segment.isNamePart d = true := by
      rcases List.mem_cons.1 hd with rfl | hMem
      · exact Source.isNamePart_of_isNameStart hStart
      · exact hParts d hMem
    exact Form.isWordChar_of_class rfl rfl rfl hPart

/-- Tokens that differ in their lines only. -/
theorem mapLine_const (hKind : t.kind = t'.kind) (hText : t.lexeme = t'.lexeme)
    (hPayload : t.payload = t'.payload) :
    t.mapLine (fun _ => line) = t'.mapLine fun _ => line := by
  rw [mapLine, mapLine, hKind, hText, hPayload]

/-- A name is known by its text. -/
theorem mapLine_eq_of_name (h : t.kind = .identifier ∧ t.Lexed)
    (h' : t'.kind = .identifier ∧ t'.Lexed) (hText : t.lexeme = t'.lexeme) :
    t.mapLine (fun _ => line) = t'.mapLine fun _ => line := by
  have hNone {u : Token} (hu : u.kind = .identifier ∧ u.Lexed) : u.payload = none := by
    have hLexed := hu.2
    rw [Lexed, hu.1] at hLexed
    exact hLexed.exists_name.1
  exact mapLine_const (h.1.trans h'.1.symm) hText ((hNone h).trans (hNone h').symm)

/-- A symbol is known by its spelling. -/
theorem mapLine_eq_of_isSymbol (hSymbol : t.kind.isSymbol) (hSymbol' : t'.kind.isSymbol)
    (hSpelling : t.kind.spelling = t'.kind.spelling) (h : t.Lexed) (h' : t'.Lexed) :
    t.mapLine (fun _ => line) = t'.mapLine fun _ => line := by
  have hNone {u : Token} (hu : u.kind.isSymbol) (hLexed : u.Lexed) : u.payload = none := by
    rcases hLexed.payload_cases with ⟨hNumber, -⟩ | ⟨hText, -⟩ | ⟨-, -, hNone⟩
    · rw [hNumber] at hu
      cases hu
    · rw [hText] at hu
      cases hu
    · exact hNone
  have hKind : t.kind = t'.kind := Source.spelling_inj_of_isSymbol hSymbol hSymbol' hSpelling
  have hText : t.lexeme = t'.lexeme := by
    apply String.toList_inj.1
    rw [h.eq_spelling_of_isSymbol hSymbol, h'.eq_spelling_of_isSymbol hSymbol', hSpelling]
  exact mapLine_const hKind hText ((hNone hSymbol h).trans (hNone hSymbol' h').symm)

end Token

namespace UnaryOp

theorem symbol_inj {op op' : UnaryOp} (h : op.symbol = op'.symbol) : op = op' := by
  have hFound (op : UnaryOp) : ofSymbol? op.symbol = some op := by cases op <;> rfl
  have hSame := hFound op
  rw [h, hFound op'] at hSame
  exact (Option.some.inj hSame).symm

theorem spelling_of_ofKind? {op : UnaryOp} {k : Token.Kind} (h : ofKind? k = some op) :
    k.isSymbol ∧ k.spelling = op.symbol := by
  unfold ofKind? at h
  split at h <;> cases h <;> exact ⟨rfl, rfl⟩

/-- What writes an operator is known by the operator. -/
theorem mapLine_operator {op : UnaryOp} {t t' : Token} {line : Nat}
    (h : ofKind? t.kind = some op ∧ t.Lexed) (h' : ofKind? t'.kind = some op ∧ t'.Lexed) :
    t.mapLine (fun _ => line) = t'.mapLine fun _ => line := by
  obtain ⟨hSymbol, hSpelling⟩ := spelling_of_ofKind? h.1
  obtain ⟨hSymbol', hSpelling'⟩ := spelling_of_ofKind? h'.1
  exact Token.mapLine_eq_of_isSymbol hSymbol hSymbol' (hSpelling.trans hSpelling'.symm) h.2 h'.2

theorem isWordChar_symbol (op : UnaryOp) : ∀ c ∈ op.symbol.toList, Form.isWordChar c = true := by
  cases op <;> exact List.all_eq_true.1 (by decide)

theorem symbol_ne_group (op : UnaryOp) : op.symbol ≠ "group" := by
  cases op <;> decide

end UnaryOp

namespace BinaryOp

theorem symbol_inj {op op' : BinaryOp} (h : op.symbol = op'.symbol) : op = op' := by
  have hFound (op : BinaryOp) : ofSymbol? op.symbol = some op := by cases op <;> rfl
  have hSame := hFound op
  rw [h, hFound op'] at hSame
  exact (Option.some.inj hSame).symm

theorem spelling_of_ofKind? {op : BinaryOp} {k : Token.Kind} (h : ofKind? k = some op) :
    k.isSymbol ∧ k.spelling = op.symbol := by
  unfold ofKind? at h
  split at h <;> cases h <;> exact ⟨rfl, rfl⟩

/-- What writes an operator is known by the operator. -/
theorem mapLine_operator {op : BinaryOp} {t t' : Token} {line : Nat}
    (h : ofKind? t.kind = some op ∧ t.Lexed) (h' : ofKind? t'.kind = some op ∧ t'.Lexed) :
    t.mapLine (fun _ => line) = t'.mapLine fun _ => line := by
  obtain ⟨hSymbol, hSpelling⟩ := spelling_of_ofKind? h.1
  obtain ⟨hSymbol', hSpelling'⟩ := spelling_of_ofKind? h'.1
  exact Token.mapLine_eq_of_isSymbol hSymbol hSymbol' (hSpelling.trans hSpelling'.symm) h.2 h'.2

theorem isWordChar_symbol (op : BinaryOp) : ∀ c ∈ op.symbol.toList, Form.isWordChar c = true := by
  cases op <;> exact List.all_eq_true.1 (by decide)

theorem symbol_ne_comma (op : BinaryOp) : op.symbol ≠ "," := by
  cases op <;> decide

theorem symbol_ne_equal (op : BinaryOp) : op.symbol ≠ "=" := by
  cases op <;> decide

end BinaryOp

/-! ## Literals -/

namespace Value

variable {v w : Value}

theorem head?_literal_number {x : Float} (h : (Value.number x).Lexed) :
    ∃ c, (Number.literal x).toList.head? = some c ∧ c.isDigit = true := by
  obtain ⟨c, cs, hText, hDigit, -⟩ := Number.literal_chars h.1 h.2
  exact ⟨c, by rw [hText, List.head?_cons], hDigit⟩

theorem isWord_literal_number {x : Float} (h : (Value.number x).Lexed) :
    Form.IsWord (Number.literal x) := by
  obtain ⟨c, hHead, hDigit⟩ := head?_literal_number h
  obtain ⟨-, -, -, -, hChars⟩ := Number.literal_chars h.1 h.2
  refine ⟨by simp [hHead], ?_, fun d hd => ?_⟩
  · rw [hHead, ne_eq, Option.some.injEq]
    rintro rfl
    exact absurd hDigit (by decide)
  · exact Form.isWordChar_of_class rfl rfl rfl (hChars d hd)

theorem plain_form (h : v.Lexed) : v.form.Plain := by
  cases v with
  | number x => exact isWord_literal_number h
  | text s => trivial
  | bool b => cases b <;> exact ⟨by decide, by decide, List.all_eq_true.1 (by decide)⟩
  | nil => exact ⟨by decide, by decide, List.all_eq_true.1 (by decide)⟩

theorem form_ne_node (v : Value) (head : String) (parts : List Form) :
    v.form ≠ .node head parts := by
  cases v <;> simp [form]

/-- Only a number begins with a digit. -/
theorem literal_number_ne {x : Float} (h : (Value.number x).Lexed) {word : String}
    (hWord : word.toList.head?.any Char.isDigit = false) : Number.literal x ≠ word := by
  rintro rfl
  obtain ⟨c, hHead, hDigit⟩ := head?_literal_number h
  rw [hHead, Option.any_some, hDigit] at hWord
  cases hWord

/-- The form of a literal tells its value. -/
theorem form_inj (hv : v.Lexed) (hw : w.Lexed) (h : v.form = w.form) : v = w := by
  cases v with
  | number x =>
      cases w with
      | number y => rw [Number.literal_inj hv.1 hv.2 hw.1 hw.2 (Form.word.inj h)]
      | text t => cases h
      | bool b => exact absurd (Form.word.inj h) (literal_number_ne hv (by cases b <;> decide))
      | nil => exact absurd (Form.word.inj h) (literal_number_ne hv (by decide))
  | text s =>
      cases w with
      | text t => rw [Form.quoted.inj h]
      | _ => cases h
  | bool b =>
      cases w with
      | number y =>
          exact absurd (Form.word.inj h).symm (literal_number_ne hw (by cases b <;> decide))
      | text t => cases h
      | bool b' => cases b <;> cases b' <;> simp_all [form, boolText]
      | nil => cases b <;> simp [form, boolText] at h
  | nil =>
      cases w with
      | number y => exact absurd (Form.word.inj h).symm (literal_number_ne hw (by decide))
      | text t => cases h
      | bool b => cases b <;> simp [form, boolText] at h
      | nil => rfl

/-- No name is a literal: the words among the literals are reserved. -/
theorem form_ne_name {t : Token} (hv : v.Lexed) (ht : t.kind = .identifier ∧ t.Lexed) :
    v.form ≠ .word t.lexeme := by
  obtain ⟨hKind, hLexed⟩ := ht
  rw [Token.Lexed, hKind] at hLexed
  obtain ⟨-, hFree, c, ds, hText, hStart, -⟩ := hLexed.exists_name
  intro h
  cases v with
  | number x =>
      refine literal_number_ne hv ?_ (Form.word.inj h)
      rw [hText, List.head?_cons, Option.any_some]
      exact Source.not_isDigit_of_isNameStart hStart
  | text s => cases h
  | bool b =>
      cases b with
      | true => exact hFree .kwTrue rfl (congrArg String.toList (Form.word.inj h))
      | false => exact hFree .kwFalse rfl (congrArg String.toList (Form.word.inj h))
  | nil => exact hFree .kwNil rfl (congrArg String.toList (Form.word.inj h))

end Value

/-! ## Expressions -/

namespace Expr

theorem plain_form {e : Expr} (h : e.Lexed) : e.form.Plain := by
  induction e with
  | literal v => exact v.plain_form h
  | group inner ih => exact ⟨List.all_eq_true.1 (by decide), ih h, trivial⟩
  | unary op operator operand ih => exact ⟨op.isWordChar_symbol, ih h.2, trivial⟩
  | binary op operator left right ihLeft ihRight =>
      exact ⟨op.isWordChar_symbol, ihLeft h.2.1, ihRight h.2.2, trivial⟩
  | conditional condition thenBranch elseBranch ihCondition ihThen ihElse =>
      exact ⟨List.all_eq_true.1 (by decide), ihCondition h.1, ihThen h.2.1, ihElse h.2.2, trivial⟩
  | comma left right ihLeft ihRight =>
      exact ⟨List.all_eq_true.1 (by decide), ihLeft h.1, ihRight h.2, trivial⟩
  | «variable» name => exact name.isWord_lexeme h
  | assign name value ih =>
      exact ⟨List.all_eq_true.1 (by decide), name.isWord_lexeme h.1, ih h.2, trivial⟩
  | missing => exact h.elim

/-- The form of an expression tells the expression but for its lines. -/
theorem mapLine_eq_of_form_eq {line : Nat} {e e' : Expr} (h : e.Lexed) (h' : e'.Lexed)
    (hForm : e.form = e'.form) : e.mapLine (fun _ => line) = e'.mapLine fun _ => line := by
  induction e generalizing e' with
  | literal v =>
      cases e' with
      | literal w => rw [v.form_inj h h' hForm]
      | «variable» name => exact absurd hForm (v.form_ne_name h h')
      | missing => exact h'.elim
      | _ => exact absurd hForm (v.form_ne_node _ _)
  | «variable» name =>
      cases e' with
      | literal w => exact absurd hForm.symm (w.form_ne_name h' h)
      | «variable» name' =>
          exact congrArg Expr.variable (Token.mapLine_eq_of_name h h' (Form.word.inj hForm))
      | missing => exact h'.elim
      | _ => cases hForm
  | group inner ih =>
      cases e' with
      | literal w => exact absurd hForm.symm (w.form_ne_node _ _)
      | group inner' =>
          simp only [form, Form.node.injEq, List.cons.injEq, and_true, true_and] at hForm
          rw [mapLine, mapLine, @ih inner' h h' hForm]
      | unary op' operator' operand' =>
          exact absurd (Form.node.inj hForm).1.symm op'.symbol_ne_group
      | missing => exact h'.elim
      | _ => simp [form] at hForm
  | unary op operator operand ih =>
      cases e' with
      | literal w => exact absurd hForm.symm (w.form_ne_node _ _)
      | group inner' => exact absurd (Form.node.inj hForm).1 op.symbol_ne_group
      | unary op' operator' operand' =>
          simp only [form, Form.node.injEq, List.cons.injEq, and_true] at hForm
          obtain rfl := UnaryOp.symbol_inj hForm.1
          rw [mapLine, mapLine, UnaryOp.mapLine_operator h.1 h'.1, ih h.2 h'.2 hForm.2]
      | missing => exact h'.elim
      | _ => simp [form] at hForm
  | binary op operator left right ihLeft ihRight =>
      cases e' with
      | literal w => exact absurd hForm.symm (w.form_ne_node _ _)
      | binary op' operator' left' right' =>
          simp only [form, Form.node.injEq, List.cons.injEq, and_true] at hForm
          obtain rfl := BinaryOp.symbol_inj hForm.1
          rw [mapLine, mapLine, BinaryOp.mapLine_operator h.1 h'.1,
            ihLeft h.2.1 h'.2.1 hForm.2.1, ihRight h.2.2 h'.2.2 hForm.2.2]
      | comma left' right' => exact absurd (Form.node.inj hForm).1 op.symbol_ne_comma
      | assign name' value' => exact absurd (Form.node.inj hForm).1 op.symbol_ne_equal
      | missing => exact h'.elim
      | _ => simp [form] at hForm
  | conditional condition thenBranch elseBranch ihCondition ihThen ihElse =>
      cases e' with
      | literal w => exact absurd hForm.symm (w.form_ne_node _ _)
      | conditional condition' thenBranch' elseBranch' =>
          simp only [form, Form.node.injEq, List.cons.injEq, and_true, true_and] at hForm
          rw [mapLine, mapLine, ihCondition h.1 h'.1 hForm.1, ihThen h.2.1 h'.2.1 hForm.2.1,
            ihElse h.2.2 h'.2.2 hForm.2.2]
      | missing => exact h'.elim
      | _ => simp [form] at hForm
  | comma left right ihLeft ihRight =>
      cases e' with
      | literal w => exact absurd hForm.symm (w.form_ne_node _ _)
      | binary op' operator' left' right' =>
          exact absurd (Form.node.inj hForm).1.symm op'.symbol_ne_comma
      | comma left' right' =>
          simp only [form, Form.node.injEq, List.cons.injEq, and_true, true_and] at hForm
          rw [mapLine, mapLine, ihLeft h.1 h'.1 hForm.1, ihRight h.2 h'.2 hForm.2]
      | missing => exact h'.elim
      | _ => simp [form] at hForm
  | assign name value ih =>
      cases e' with
      | literal w => exact absurd hForm.symm (w.form_ne_node _ _)
      | binary op' operator' left' right' =>
          exact absurd (Form.node.inj hForm).1.symm op'.symbol_ne_equal
      | assign name' value' =>
          simp only [form, Form.node.injEq, Form.word.injEq, List.cons.injEq, and_true,
            true_and] at hForm
          rw [mapLine, mapLine, Token.mapLine_eq_of_name h.1 h'.1 hForm.1, ih h.2 h'.2 hForm.2]
      | missing => exact h'.elim
      | _ => simp [form] at hForm
  | missing => exact h.elim

end Expr

/-! ## Statements -/

namespace Declaration

theorem plain_form {d : Declaration} (h : d.Lexed) : d.form.Plain := by
  obtain ⟨name, initializer⟩ := d
  have hName := name.isWord_lexeme h.1
  cases initializer with
  | none => exact ⟨List.all_eq_true.1 (by decide), hName, trivial⟩
  | some e =>
      exact ⟨List.all_eq_true.1 (by decide), hName, Expr.plain_form (h.2 e rfl), trivial⟩

theorem plainAll_form {ds : List Declaration} (h : ∀ d ∈ ds, d.Lexed) :
    Form.PlainAll (ds.map form) := by
  induction ds with
  | nil => trivial
  | cons d ds ih =>
      obtain ⟨hFirst, hOthers⟩ := List.forall_mem_cons.1 h
      exact ⟨plain_form hFirst, ih hOthers⟩

/-- The form of a declared name tells the declaration but for its lines. -/
theorem mapLine_eq_of_form_eq {line : Nat} {d d' : Declaration} (h : d.Lexed) (h' : d'.Lexed)
    (hForm : d.form = d'.form) : d.mapLine (fun _ => line) = d'.mapLine fun _ => line := by
  obtain ⟨name, initializer⟩ := d
  obtain ⟨name', initializer'⟩ := d'
  simp only [form, Form.node.injEq, Form.word.injEq, List.cons.injEq, true_and] at hForm
  obtain ⟨hText, hInitializer⟩ := hForm
  rw [mapLine, mapLine, Token.mapLine_eq_of_name h.1 h'.1 hText]
  cases initializer with
  | none =>
      cases initializer' with
      | none => rfl
      | some e' => cases hInitializer
  | some e =>
      cases initializer' with
      | none => cases hInitializer
      | some e' =>
          have hValue : e.form = e'.form := (List.cons.inj hInitializer).1
          rw [Option.map_some, Option.map_some,
            Expr.mapLine_eq_of_form_eq (h.2 e rfl) (h'.2 e' rfl) hValue]

end Declaration

namespace Stmt

mutual

theorem plain_form : ∀ {s : Stmt}, s.Lexed → s.form.Plain
  | .expression e, h => ⟨List.all_eq_true.1 (by decide), Expr.plain_form h, trivial⟩
  | .print e, h => ⟨List.all_eq_true.1 (by decide), Expr.plain_form h, trivial⟩
  | .declare d, h => Declaration.plain_form h
  | .declareAll ds, h => ⟨List.all_eq_true.1 (by decide), Declaration.plainAll_form h⟩
  | .block body, h => ⟨List.all_eq_true.1 (by decide), plainAll_formAll h⟩

theorem plainAll_formAll : ∀ {ss : List Stmt}, LexedAll ss → Form.PlainAll (formAll ss)
  | [], _ => trivial
  | _ :: _, h => ⟨plain_form h.1, plainAll_formAll h.2⟩

end

mutual

/-- The form of a statement tells the statement but for its lines. -/
theorem mapLine_eq_of_form_eq {line : Nat} : ∀ {s s' : Stmt}, s.Lexed → s'.Lexed →
    s.form = s'.form → s.mapLine (fun _ => line) = s'.mapLine fun _ => line
  | .expression e, s', h, h', hForm => by
      cases s' with
      | expression e' =>
          simp only [form, Form.node.injEq, List.cons.injEq, and_true, true_and] at hForm
          rw [mapLine, mapLine, Expr.mapLine_eq_of_form_eq h h' hForm]
      | _ => simp [form, Declaration.form] at hForm
  | .print e, s', h, h', hForm => by
      cases s' with
      | print e' =>
          simp only [form, Form.node.injEq, List.cons.injEq, and_true, true_and] at hForm
          rw [mapLine, mapLine, Expr.mapLine_eq_of_form_eq h h' hForm]
      | _ => simp [form, Declaration.form] at hForm
  | .declare d, s', h, h', hForm => by
      cases s' with
      | declare d' => rw [mapLine, mapLine, Declaration.mapLine_eq_of_form_eq h h' hForm]
      | _ => simp [form, Declaration.form] at hForm
  | .declareAll ds, s', h, h', hForm => by
      cases s' with
      | declareAll ds' =>
          simp only [form, Form.node.injEq, true_and] at hForm
          rw [mapLine, mapLine, map_eq_of_map_eq Declaration.mapLine_eq_of_form_eq h h' hForm]
      | _ => simp [form, Declaration.form] at hForm
  | .block body, s', h, h', hForm => by
      cases s' with
      | block body' =>
          simp only [form, Form.node.injEq, true_and] at hForm
          rw [mapLine, mapLine, mapLineAll_eq_of_formAll_eq h h' hForm]
      | _ => simp [form, Declaration.form] at hForm

/-- The forms of statements tell the statements but for their lines. -/
theorem mapLineAll_eq_of_formAll_eq {line : Nat} : ∀ {ss ss' : List Stmt}, LexedAll ss →
    LexedAll ss' → formAll ss = formAll ss' →
    mapLineAll (fun _ => line) ss = mapLineAll (fun _ => line) ss'
  | [], [], _, _, _ => rfl
  | [], _ :: _, _, _, hForm => by cases hForm
  | _ :: _, [], _, _, hForm => by cases hForm
  | s :: rest, s' :: rest', h, h', hForm => by
      obtain ⟨hFirst, hOthers⟩ := List.cons.inj hForm
      rw [mapLineAll, mapLineAll, mapLine_eq_of_form_eq h.1 h'.1 hFirst,
        mapLineAll_eq_of_formAll_eq h.2 h'.2 hOthers]

end

theorem lexedAll_iff {ss : List Stmt} : LexedAll ss ↔ ∀ s ∈ ss, s.Lexed := by
  induction ss with
  | nil => simp [LexedAll]
  | cons s rest ih => simp [LexedAll, ih]

/-- The text of a statement tells the statement but for its lines. -/
theorem mapLine_eq_of_render_eq {visible : Char → Bool} {line : Nat} {s s' : Stmt} (h : s.Lexed)
    (h' : s'.Lexed) (hText : s.renderBy visible = s'.renderBy visible) :
    s.mapLine (fun _ => line) = s'.mapLine fun _ => line := by
  apply mapLine_eq_of_form_eq h h'
  have hChars : s.form.chars visible = s'.form.chars visible := by
    rw [← toList_renderBy, ← toList_renderBy, hText]
  exact Form.chars_inj (plain_form h) (plain_form h') hChars

/-- The texts of statements tell the statements but for their lines. -/
theorem mapLineAll_eq_of_render_eq {visible : Char → Bool} {line : Nat} {ss ss' : List Stmt}
    (h : LexedAll ss) (h' : LexedAll ss')
    (hText : ss.map (renderBy visible) = ss'.map (renderBy visible)) :
    mapLineAll (fun _ => line) ss = mapLineAll (fun _ => line) ss' := by
  rw [mapLineAll_eq_map, mapLineAll_eq_map]
  exact map_eq_of_map_eq mapLine_eq_of_render_eq (lexedAll_iff.1 h) (lexedAll_iff.1 h') hText

end Stmt

end TinyScript
