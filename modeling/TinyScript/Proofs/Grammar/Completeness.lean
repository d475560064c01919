import TinyScript.Proofs.Grammar.Productions

/-!
# Every well-formed program is read back

A program tree, written out as the tokens it stands for, is read as that tree and
nothing is reported.

The induction is over trees, and it needs to know where a production stops. A level
looks at one token behind its operand, and there is at most one level that this token
carries on (`Level.ofContinuation?`). So an expression of a level ends wherever the
next token carries on a looser level or none (`Stops`), and the statement to prove of
a tree quantifies over everything that may follow it.

For the levels that are chains this is not enough: the left operand of `a - b - c`
is followed by an operator of its own level. What is true of it is that reading hands
it to the loop over the operators, whichever follow; `Reads` has both statements, and
for a chain the second gives the first.

## Main results

* `reads_of_fits`: expressions, at every level that admits them.
* `statement_of_fits`, `items_of_fits`: statements and lists of them, whatever follows.

What holds of whole programs comes last.
-/

namespace TinyScript.Grammar

open Token (Kind)

/-! ## Where a level stops -/

/-- The level that a token carries on when it follows an operand. -/
def Level.ofContinuation? : Kind → Option Level
  | .comma => some .comma
  | .equal => some .assignment
  | .question => some .conditional
  | k => (BinaryOp.ofKind? k).map .ofOperator

/-- Whether what follows an expression of the level does not carry it on. -/
def Stops (l : Level) (rest : List Token) : Prop :=
  ∀ t ∈ rest.head?, ∀ k ∈ Level.ofContinuation? t.kind, l.rank < k.rank

/-- A token that carries on no level stops every level. -/
theorem stops_of_none {t : Token} (h : Level.ofContinuation? t.kind = none) (l : Level)
    (rest : List Token) : Stops l (t :: rest) := by
  intro u hu k hk
  cases hu
  rw [h] at hk
  cases hk

/-- A token that carries on a looser level stops a level. -/
theorem stops_of_some {t : Token} {k l : Level} (h : Level.ofContinuation? t.kind = some k)
    (hRank : l.rank < k.rank) (rest : List Token) : Stops l (t :: rest) := by
  intro u hu j hj
  cases hu
  rw [h] at hj
  cases hj
  exact hRank

theorem Stops.tighten {k l : Level} {rest : List Token} (h : Stops l rest)
    (hRank : k.rank ≤ l.rank) : Stops k rest :=
  fun t ht j hj => Nat.lt_of_le_of_lt hRank (h t ht j hj)

/-- A level that stops at a token is not the one that the token carries on. -/
theorem Stops.ofContinuation?_ne {l : Level} {t : Token} {rest : List Token}
    (h : Stops l (t :: rest)) : Level.ofContinuation? t.kind ≠ some l :=
  fun hSome => Nat.lt_irrefl _ (h t rfl l hSome)

theorem Stops.kind_ne {l : Level} {t : Token} {rest : List Token} {k : Kind}
    (h : Stops l (t :: rest)) (hk : Level.ofContinuation? k = some l) : t.kind ≠ k := by
  rintro rfl
  exact h.ofContinuation?_ne hk

/-- The token of an operator carries on the level of the operator. -/
theorem Level.ofContinuation?_of_ofKind? {k : Kind} {op : BinaryOp}
    (h : BinaryOp.ofKind? k = some op) : ofContinuation? k = some (ofOperator op) := by
  unfold BinaryOp.ofKind? at h
  split at h <;> cases h <;> rfl

/-- What joins operands at a level carries the level on. -/
theorem Level.ofContinuation?_of_join? {l : Level} {t : Token} {join : Expr → Expr → Expr}
    (h : l.join? t = some join) : ofContinuation? t.kind = some l := by
  rcases join?_eq_some_iff.1 h with ⟨rfl, hKind, -⟩ | ⟨op, hKind, rfl, -⟩
  · rw [hKind]
    rfl
  · exact ofContinuation?_of_ofKind? hKind

variable {endLine : Nat}

/-- A chain ends where the level stops. -/
theorem chain_of_stops {l : Level} {left : Expr} {rest : List Token} (h : Stops l rest) :
    chain endLine l left rest = .done left rest := by
  cases rest with
  | nil => exact chain_nil l left
  | cons t rest =>
      rw [chain_cons]
      cases hJoin : l.join? t with
      | none => rfl
      | some join => exact absurd (Level.ofContinuation?_of_join? hJoin) h.ofContinuation?_ne

/-! ## Expressions -/

/-- Reading at a level gives the expression `e` for the tokens `ts`, whatever follows. -/
structure Reads (endLine : Nat) (l : Level) (e : Expr) (ts : List Token) : Prop where
  /-- Before something that does not carry it on, the expression is read as a whole. -/
  whole : ∀ rest, Stops l rest → expr endLine l (ts ++ rest) = .done e rest
  /-- In a chain it is handed on as the left operand of the operator that follows. -/
  first : l.isChain → ∀ rest, Stops l.tighter rest →
    expr endLine l (ts ++ rest) = chain endLine l e rest

namespace Reads

variable {k l : Level} {e : Expr} {ts : List Token}

/-- In a chain, what is handed to the loop is read as a whole where the level stops. -/
theorem of_first (hChain : l.isChain) (hFirst : ∀ rest, Stops l.tighter rest →
    expr endLine l (ts ++ rest) = chain endLine l e rest) : Reads endLine l e ts := by
  refine ⟨fun rest hStops => ?_, fun _ => hFirst⟩
  have hTighter : l.tighter.rank ≤ l.rank := Nat.le_of_lt (Level.rank_tighter_lt hChain)
  rw [hFirst rest (hStops.tighten hTighter), chain_of_stops hStops]

/-- What is no chain is only read as a whole. -/
theorem of_whole (hChain : l.isChain = false) (hWhole : ∀ rest, Stops l rest →
    expr endLine l (ts ++ rest) = .done e rest) : Reads endLine l e ts :=
  ⟨hWhole, fun h => absurd h (by rw [hChain]; decide)⟩

/-- A level that finds no operator of its own gives what the next tighter level does. -/
theorem of_tighter (h : Reads endLine l.tighter e ts) (hRank : Level.unary.rank < l.rank) :
    Reads endLine l e ts := by
  by_cases hChain : l.isChain
  · refine of_first hChain fun rest hStops => ?_
    rw [expr_of_isChain hChain, h.whole rest hStops, Reading.bind_done]
  · refine of_whole (by simpa using hChain) fun rest hStops => ?_
    cases l
    case assignment =>
      have hOperand : expr endLine .conditional (ts ++ rest) = .done e rest :=
        h.whole rest (hStops.tighten (by decide))
      rw [expr_assignment, hOperand, Reading.bind_done]
      cases rest with
      | nil => rfl
      | cons t rest =>
          have hKind : t.kind ≠ .equal := hStops.kind_ne rfl
          simp only [hKind, if_false]
    case conditional =>
      have hOperand : expr endLine .equality (ts ++ rest) = .done e rest :=
        h.whole rest (hStops.tighten (by decide))
      rw [expr_conditional, hOperand, Reading.bind_done]
      cases rest with
      | nil => rfl
      | cons t rest =>
          have hKind : t.kind ≠ .question := hStops.kind_ne rfl
          simp only [hKind, if_false]
    case unary => exact absurd hRank (Nat.lt_irrefl _)
    case primary => exact absurd hRank (by decide)
    all_goals exact absurd rfl hChain

/-- Looser levels read what a level reads, down to the unary level. -/
theorem loosen (h : Reads endLine k e ts) (hUnary : Level.unary.rank ≤ k.rank)
    (hRank : k.rank ≤ l.rank) : Reads endLine l e ts := by
  obtain ⟨n, hn⟩ : ∃ n, k.rank + n = l.rank := Nat.exists_eq_add_of_le hRank |>.imp fun _ => Eq.symm
  induction n generalizing l with
  | zero =>
      rw [Nat.add_zero] at hn
      exact Level.rank_inj hn ▸ h
  | succ n ih =>
      have hPos : 0 < Level.unary.rank := by decide
      have hTighter : l.tighter.rank + 1 = l.rank := Level.rank_tighter (by omega)
      exact of_tighter (ih (by omega) (by omega)) (by omega)

/-- Every level reads a primary expression that no prefix operator leads. -/
theorem of_primary {t : Token} (hHead : UnaryOp.ofKind? t.kind = none)
    (h : ∀ rest, expr endLine .primary (t :: ts ++ rest) = .done e rest) (l : Level) :
    Reads endLine l e (t :: ts) := by
  by_cases hPrimary : l = .primary
  · subst hPrimary
    exact of_whole rfl fun rest _ => h rest
  · have hUnary : Reads endLine .unary e (t :: ts) := by
      refine of_whole rfl fun rest _ => ?_
      have hRest := h rest
      rw [List.cons_append] at hRest ⊢
      rw [expr_unary_cons, hHead, hRest]
    refine hUnary.loosen (Nat.le_refl _) ?_
    cases l
    case primary => exact absurd rfl hPrimary
    all_goals decide

end Reads

/-- In a chain, two operands and the operator between them are read as one expression. -/
theorem Reads.join {l : Level} {t : Token} {join : Expr → Expr → Expr} {left right : Expr}
    {us vs : List Token} (hJoin : l.join? t = some join) (hLeft : Reads endLine l left us)
    (hRight : Reads endLine l.tighter right vs) :
    Reads endLine l (join left right) (us ++ t :: vs) := by
  have hLevel : Level.ofContinuation? t.kind = some l := Level.ofContinuation?_of_join? hJoin
  have hChain : l.isChain := Level.isChain_of_join? hJoin
  refine .of_first hChain fun rest hStops => ?_
  rw [List.append_assoc, List.cons_append,
    hLeft.first hChain _ (stops_of_some hLevel (Level.rank_tighter_lt hChain) _), chain_cons, hJoin]
  simp only [hRight.whole rest hStops, Reading.bind_done]

/-- A name is read as a variable at every level. -/
theorem reads_variable {name : Token} (h : name.kind = .identifier) (l : Level) :
    Reads endLine l (.variable name) [name] := by
  refine .of_primary (by rw [h]; rfl) (fun rest => ?_) l
  rw [List.cons_append, List.nil_append, expr_primary_cons]
  simp [literal?, h]

/-- A conditional is read up to the end of its second branch. -/
theorem Reads.conditional {q c : Token} {condition thenBranch elseBranch : Expr}
    {us vs ws : List Token} (hQuestion : q.kind = .question) (hColon : c.kind = .colon)
    (hCondition : Reads endLine .equality condition us) (hThen : Reads endLine .comma thenBranch vs)
    (hElse : Reads endLine .conditional elseBranch ws) :
    Reads endLine .conditional (.conditional condition thenBranch elseBranch)
      (us ++ q :: (vs ++ c :: ws)) := by
  refine .of_whole rfl fun rest hStops => ?_
  have hLevel : Level.ofContinuation? q.kind = some .conditional := by
    rw [hQuestion]
    rfl
  have hFirst := hCondition.whole (q :: (vs ++ c :: (ws ++ rest)))
    (stops_of_some hLevel (by decide) _)
  have hSecond := hThen.whole (c :: (ws ++ rest)) (stops_of_none (by rw [hColon]; rfl) _ _)
  have hThird := hElse.whole rest hStops
  simp only [List.append_assoc, List.cons_append]
  rw [expr_conditional, hFirst]
  simp only [Reading.bind_done, hQuestion, if_true, hSecond, hColon, hThird]

/-- An assignment is read up to the end of its value. -/
theorem Reads.assign {name t : Token} {value : Expr} {us : List Token}
    (hName : name.kind = .identifier) (hEqual : t.kind = .equal)
    (hValue : Reads endLine .assignment value us) :
    Reads endLine .assignment (.assign name value) (name :: t :: us) := by
  refine .of_whole rfl fun rest hStops => ?_
  have hLevel : Level.ofContinuation? t.kind = some .assignment := by
    rw [hEqual]
    rfl
  have hVariable : Reads endLine .conditional (.variable name) [name] := reads_variable hName _
  have hTarget := hVariable.whole (t :: (us ++ rest)) (stops_of_some hLevel (by decide) _)
  simp only [List.cons_append, List.nil_append] at hTarget ⊢
  rw [expr_assignment, hTarget]
  simp only [Reading.bind_done, hEqual, if_true, hValue.whole rest hStops, assignTo]

/-- Marks in two parts are fitted by tokens in two parts. -/
theorem forall₂_append_left_iff {α β : Type} {R : α → β → Prop} {as bs : List α} {ts : List β} :
    List.Forall₂ R (as ++ bs) ts ↔
      ∃ us vs, ts = us ++ vs ∧ List.Forall₂ R as us ∧ List.Forall₂ R bs vs := by
  constructor
  · intro h
    induction as generalizing ts with
    | nil => exact ⟨[], ts, rfl, .nil, h⟩
    | cons a as ih =>
        obtain ⟨t, rest, hHead, hRest, rfl⟩ := List.forall₂_cons_left_iff.1 h
        obtain ⟨us, vs, rfl, hUs, hVs⟩ := ih hRest
        exact ⟨t :: us, vs, rfl, .cons hHead hUs, hVs⟩
  · rintro ⟨us, vs, rfl, hUs, hVs⟩
    exact List.rel_append hUs hVs

/-- Punctuation in front is fitted by a token of its kind. -/
theorem exists_of_fits_cons {k : Kind} {ms : List Mark} {ts : List Token}
    (h : List.Forall₂ Mark.Fits (.fixed k :: ms) ts) :
    ∃ t us, ts = t :: us ∧ t.kind = k ∧ List.Forall₂ Mark.Fits ms us := by
  obtain ⟨t, us, hKind, hUs, rfl⟩ := List.forall₂_cons_left_iff.1 h
  exact ⟨t, us, rfl, hKind, hUs⟩

/-- Punctuation at the end is fitted by a token of its kind. -/
theorem exists_of_fits_append {k : Kind} {ms : List Mark} {ts : List Token}
    (h : List.Forall₂ Mark.Fits (ms ++ [.fixed k]) ts) :
    ∃ us t, ts = us ++ [t] ∧ t.kind = k ∧ List.Forall₂ Mark.Fits ms us := by
  obtain ⟨us, _, rfl, hUs, hLast⟩ := forall₂_append_left_iff.1 h
  obtain ⟨t, _, rfl, hKind, hNil⟩ := exists_of_fits_cons hLast
  rw [List.forall₂_nil_left_iff.1 hNil]
  exact ⟨us, t, rfl, hKind, hUs⟩

/-- The kinds of tokens that are literals. -/
theorem kind_of_isLiteral {t : Token} {v : Value} (h : IsLiteral t v) :
    t.kind ∈ [Kind.text, .number, .kwFalse, .kwTrue, .kwNil] := by
  cases v with
  | number x => rw [h.1]; decide
  | text s => rw [h.1]; decide
  | bool b =>
      have hKind : t.kind = if b then .kwTrue else .kwFalse := h
      rw [hKind]
      cases b <;> decide
  | nil =>
      have hKind : t.kind = .kwNil := h
      rw [hKind]
      decide

/-- No prefix operator is a literal. -/
theorem ofKind?_of_isLiteral {t : Token} {v : Value} (h : IsLiteral t v) :
    UnaryOp.ofKind? t.kind = none := by
  have hNone : ∀ k ∈ [Kind.text, .number, .kwFalse, .kwTrue, .kwNil],
      UnaryOp.ofKind? k = none := by decide
  exact hNone t.kind (kind_of_isLiteral h)

/-- A group is read up to its closing parenthesis. -/
theorem closeGroup_of_kind {t : Token} (h : t.kind = .rightParen) (inner : Expr)
    (rest : List Token) : closeGroup endLine inner (t :: rest) = .done (.group inner) rest := by
  simp [closeGroup, expect, h]

/--
**Expressions are read back.** The induction is over the expression; each rule is shown
at the level of its root, from where looser levels only pass the result on.
-/
theorem reads_of_fits {e : Expr} : ∀ {l : Level} {ts : List Token}, l.Admits e →
    List.Forall₂ Mark.Fits e.marks ts → Reads endLine l e ts := by
  induction e with
  | literal v =>
      intro l ts _ hFits
      obtain ⟨t, _, hLiteral, hNil, rfl⟩ := List.forall₂_cons_left_iff.1 hFits
      rw [List.forall₂_nil_left_iff.1 hNil]
      refine Reads.of_primary (ofKind?_of_isLiteral hLiteral) (fun rest => ?_) l
      rw [List.cons_append, List.nil_append, expr_primary_cons, literal?_eq_some_iff.2 hLiteral]
  | «variable» name =>
      intro l ts hForm hFits
      obtain ⟨t, _, rfl, hNil, rfl⟩ := List.forall₂_cons_left_iff.1 hFits
      rw [List.forall₂_nil_left_iff.1 hNil]
      exact reads_variable hForm l
  | group inner ih =>
      intro l ts hForm hFits
      obtain ⟨t, _, rfl, hOpen, hInner⟩ := exists_of_fits_cons hFits
      obtain ⟨us, c, rfl, hClose, hUs⟩ := exists_of_fits_append hInner
      refine Reads.of_primary (by rw [hOpen]; rfl) (fun rest => ?_) l
      have hRead : expr endLine .comma (us ++ c :: rest) = .done inner (c :: rest) :=
        (ih hForm hUs).whole _ (stops_of_none (by rw [hClose]; rfl) _ _)
      rw [List.cons_append, expr_primary_cons, List.append_assoc, List.cons_append,
        List.nil_append, hRead]
      simp [literal?, hOpen, closeGroup_of_kind hClose]
  | unary op _ operand ih =>
      intro l ts hForm hFits
      obtain ⟨hRank, hKind, hOperand⟩ := hForm
      obtain ⟨operator, us, rfl, hUs, rfl⟩ := List.forall₂_cons_left_iff.1 hFits
      have hUnary : Reads endLine .unary (.unary op operator operand) (operator :: us) := by
        refine .of_whole rfl fun rest hStops => ?_
        rw [List.cons_append, expr_unary_cons, hKind]
        simp only [(ih hOperand hUs).whole rest hStops, Reading.bind_done]
      exact hUnary.loosen (Nat.le_refl _) hRank
  | binary op _ left right ihLeft ihRight =>
      intro l ts hForm hFits
      obtain ⟨hRank, hKind, hLeft, hRight⟩ := hForm
      obtain ⟨us, _, rfl, hUs, hMore⟩ := forall₂_append_left_iff.1 hFits
      obtain ⟨operator, vs, rfl, hVs, rfl⟩ := List.forall₂_cons_left_iff.1 hMore
      have hJoin := Level.join?_eq_some_iff.2 (.inr ⟨op, hKind, rfl, rfl⟩)
      exact (Reads.join hJoin (ihLeft hLeft hUs) (ihRight hRight hVs)).loosen
        (by cases op <;> decide) hRank
  | conditional condition thenBranch elseBranch ihCondition ihThen ihElse =>
      intro l ts hForm hFits
      obtain ⟨hRank, hCondition, hThen, hElse⟩ := hForm
      obtain ⟨us, _, rfl, hUs, hMore⟩ := forall₂_append_left_iff.1 hFits
      obtain ⟨q, _, rfl, hQuestion, hBranches⟩ := exists_of_fits_cons hMore
      obtain ⟨vs, _, rfl, hVs, hLast⟩ := forall₂_append_left_iff.1 hBranches
      obtain ⟨c, ws, rfl, hColon, hWs⟩ := exists_of_fits_cons hLast
      exact (Reads.conditional hQuestion hColon (ihCondition hCondition hUs) (ihThen hThen hVs)
        (ihElse hElse hWs)).loosen (by decide) hRank
  | comma left right ihLeft ihRight =>
      intro l ts hForm hFits
      obtain ⟨hRank, hLeft, hRight⟩ := hForm
      obtain ⟨us, _, rfl, hUs, hMore⟩ := forall₂_append_left_iff.1 hFits
      obtain ⟨c, vs, rfl, hKind, hVs⟩ := exists_of_fits_cons hMore
      have hJoin := Level.join?_eq_some_iff.2 (.inl ⟨rfl, hKind, rfl⟩)
      exact (Reads.join hJoin (ihLeft hLeft hUs) (ihRight hRight hVs)).loosen (by decide) hRank
  | assign _ value ih =>
      intro l ts hForm hFits
      obtain ⟨hRank, hName, hValue⟩ := hForm
      obtain ⟨name, _, rfl, hMore, rfl⟩ := List.forall₂_cons_left_iff.1 hFits
      obtain ⟨t, us, rfl, hEqual, hUs⟩ := exists_of_fits_cons hMore
      exact (Reads.assign hName hEqual (ih hValue hUs)).loosen (by decide) hRank
  | missing =>
      intro l ts hForm
      exact hForm.elim

/-! ## First and inner tokens -/

/-- The kinds of tokens that an expression may begin with. -/
def exprStarts : List Kind :=
  [.leftParen, .minus, .bang, .identifier, .text, .number, .kwFalse, .kwTrue, .kwNil]

theorem mem_exprStarts_of_isLiteral {t : Token} {v : Value} (h : IsLiteral t v) :
    t.kind ∈ exprStarts := by
  have hStarts : [Kind.text, .number, .kwFalse, .kwTrue, .kwNil] ⊆ exprStarts := by decide
  exact hStarts (kind_of_isLiteral h)

theorem mem_exprStarts_of_ofKind? {k : Kind} {op : UnaryOp} (h : UnaryOp.ofKind? k = some op) :
    k ∈ exprStarts := by
  unfold UnaryOp.ofKind? at h
  split at h <;> first | decide | cases h

/-- Whether there is a first token, and one that may begin an expression. -/
def BeginsExpr (ts : List Token) : Prop :=
  ∃ t us, ts = t :: us ∧ t.kind ∈ exprStarts

theorem BeginsExpr.append {us : List Token} (h : BeginsExpr us) (vs : List Token) :
    BeginsExpr (us ++ vs) := by
  obtain ⟨t, us, rfl, hKind⟩ := h
  exact ⟨t, us ++ vs, rfl, hKind⟩

/-- An expression begins with a token that may begin one. -/
theorem beginsExpr_of_fits {e : Expr} : ∀ {l : Level} {ts : List Token}, l.Admits e →
    List.Forall₂ Mark.Fits e.marks ts → BeginsExpr ts := by
  induction e with
  | literal v =>
      intro l ts _ hFits
      obtain ⟨t, us, hLiteral, -, rfl⟩ := List.forall₂_cons_left_iff.1 hFits
      exact ⟨t, us, rfl, mem_exprStarts_of_isLiteral hLiteral⟩
  | «variable» name =>
      intro l ts hForm hFits
      obtain ⟨t, us, rfl, -, rfl⟩ := List.forall₂_cons_left_iff.1 hFits
      have hKind : t.kind = .identifier := hForm
      exact ⟨t, us, rfl, by rw [hKind]; decide⟩
  | group inner _ =>
      intro l ts _ hFits
      obtain ⟨t, us, rfl, hKind, -⟩ := exists_of_fits_cons hFits
      exact ⟨t, us, rfl, by rw [hKind]; decide⟩
  | unary op operator operand _ =>
      intro l ts hForm hFits
      obtain ⟨t, us, rfl, -, rfl⟩ := List.forall₂_cons_left_iff.1 hFits
      exact ⟨t, us, rfl, mem_exprStarts_of_ofKind? hForm.2.1⟩
  | binary op operator left right ih _ =>
      intro l ts hForm hFits
      obtain ⟨us, vs, rfl, hUs, -⟩ := forall₂_append_left_iff.1 hFits
      exact (ih hForm.2.2.1 hUs).append vs
  | conditional condition thenBranch elseBranch ih _ _ =>
      intro l ts hForm hFits
      obtain ⟨us, vs, rfl, hUs, -⟩ := forall₂_append_left_iff.1 hFits
      exact (ih hForm.2.1 hUs).append vs
  | comma left right ih _ =>
      intro l ts hForm hFits
      obtain ⟨us, vs, rfl, hUs, -⟩ := forall₂_append_left_iff.1 hFits
      exact (ih hForm.2.1 hUs).append vs
  | assign name value _ =>
      intro l ts hForm hFits
      obtain ⟨t, us, rfl, -, rfl⟩ := List.forall₂_cons_left_iff.1 hFits
      have hKind : t.kind = .identifier := hForm.2.1
      exact ⟨t, us, rfl, by rw [hKind]; decide⟩
  | missing =>
      intro l ts hForm
      exact hForm.elim

/-- A mark that no end mark fits. -/
def Mark.IsInner : Mark → Prop
  | .fixed kind => kind ≠ .endOfFile
  | .literal _ => True
  | .stored t => t.kind ≠ .endOfFile

theorem Mark.Fits.kind_ne {m : Mark} {t : Token} (h : m.Fits t) (hInner : m.IsInner) :
    t.kind ≠ .endOfFile := by
  cases m with
  | fixed kind =>
      have hKind : t.kind = kind := h
      rw [hKind]
      exact hInner
  | literal v => exact ne_of_mem_of_not_mem (mem_exprStarts_of_isLiteral h) (by decide)
  | stored u =>
      have hToken : t = u := h
      rw [hToken]
      exact hInner

/-- No mark of an expression stands for an end mark. -/
theorem isInner_expr {e : Expr} : ∀ {l : Level}, l.Admits e → ∀ m ∈ e.marks, m.IsInner := by
  induction e with
  | literal v =>
      intro l _
      simp [Expr.marks, Mark.IsInner]
  | «variable» name =>
      intro l hForm
      have hKind : name.kind = .identifier := hForm
      simp [Expr.marks, Mark.IsInner, hKind]
  | group inner ih =>
      intro l hForm
      simpa [Expr.marks, Mark.IsInner, or_imp, forall_and] using ih hForm
  | unary op operator operand ih =>
      intro l ⟨_, hKind, hOperand⟩
      have hOperator : operator.kind ≠ .endOfFile := by
        intro h
        rw [h] at hKind
        cases hKind
      simpa [Expr.marks, Mark.IsInner, hOperator] using ih hOperand
  | binary op operator left right ihLeft ihRight =>
      intro l ⟨_, hKind, hLeft, hRight⟩
      have hOperator : operator.kind ≠ .endOfFile := by
        intro h
        rw [h] at hKind
        cases hKind
      simpa [Expr.marks, Mark.IsInner, or_imp, forall_and, hOperator] using
        ⟨ihLeft hLeft, ihRight hRight⟩
  | conditional condition thenBranch elseBranch ihCondition ihThen ihElse =>
      intro l ⟨_, hCondition, hThen, hElse⟩
      simpa [Expr.marks, Mark.IsInner, or_imp, forall_and] using
        ⟨ihCondition hCondition, ihThen hThen, ihElse hElse⟩
  | comma left right ihLeft ihRight =>
      intro l ⟨_, hLeft, hRight⟩
      simpa [Expr.marks, Mark.IsInner, or_imp, forall_and] using ⟨ihLeft hLeft, ihRight hRight⟩
  | assign name value ih =>
      intro l ⟨_, hName, hValue⟩
      simpa [Expr.marks, Mark.IsInner, hName] using ih hValue
  | missing =>
      intro l hForm
      exact hForm.elim

theorem isInner_declaration {d : Declaration} (h : d.WellFormed) : ∀ m ∈ d.marks, m.IsInner := by
  obtain ⟨name, init⟩ := d
  obtain ⟨hName, hInit⟩ := h
  simp only at hName
  cases init with
  | none => simp [Declaration.marks, Mark.IsInner, hName]
  | some e => simpa [Declaration.marks, Mark.IsInner, hName] using isInner_expr (hInit e rfl)

theorem isInner_declarations {ds : List Declaration} (h : ∀ d ∈ ds, d.WellFormed) :
    ∀ m ∈ Declaration.marksAll ds, m.IsInner := by
  induction ds with
  | nil => simp [Declaration.marksAll]
  | cons d ds ih =>
      have hHead := isInner_declaration (h d (by simp))
      have hRest := ih fun d hd => h d (by simp [hd])
      cases ds with
      | nil => exact hHead
      | cons d' ds =>
          simpa [Declaration.marksAll, Mark.IsInner, or_imp, forall_and] using ⟨hHead, hRest⟩

mutual

/-- No mark of a statement stands for an end mark. -/
theorem isInner_stmt : ∀ (s : Stmt), s.WellFormed → ∀ m ∈ s.marks, m.IsInner
  | .expression e, hForm => by
      simpa [Stmt.marks, Mark.IsInner, or_imp, forall_and] using isInner_expr hForm
  | .print e, hForm => by
      simpa [Stmt.marks, Mark.IsInner, or_imp, forall_and] using isInner_expr hForm
  | .declare d, hForm => by
      simpa [Stmt.marks, Mark.IsInner, or_imp, forall_and] using isInner_declaration hForm
  | .declareAll ds, hForm => by
      simpa [Stmt.marks, Mark.IsInner, or_imp, forall_and] using isInner_declarations hForm.2
  | .block body, hForm => by
      simpa [Stmt.marks, Mark.IsInner, or_imp, forall_and] using isInner_stmts body hForm

theorem isInner_stmts : ∀ (ss : List Stmt), Stmt.WellFormedAll ss →
    ∀ m ∈ Stmt.marksAll ss, m.IsInner
  | [], _ => by simp [Stmt.marksAll]
  | s :: ss, hForm => by
      simpa [Stmt.marksAll, or_imp, forall_and] using
        ⟨isInner_stmt s hForm.1, isInner_stmts ss hForm.2⟩

end

/-- Tokens that fit inner marks are not cut off by the end mark behind them. -/
theorem beforeEnd_of_fits {ms : List Mark} {ts : List Token} {mark : Token}
    (hFits : List.Forall₂ Mark.Fits ms ts) (hInner : ∀ m ∈ ms, m.IsInner)
    (hEnd : mark.kind = .endOfFile) : beforeEnd (ts ++ [mark]) = ts := by
  induction hFits with
  | nil => simp [beforeEnd, hEnd]
  | cons hHead _ ih =>
      have hKind := hHead.kind_ne (hInner _ (by simp))
      have hRest := ih fun m hm => hInner m (by simp [hm])
      rw [beforeEnd, List.cons_append, List.takeWhile_cons_of_pos (by simpa using hKind)]
      exact congrArg _ hRest

/-! ## Statements -/

open Diagnostic (Mistake)

theorem terminated_of_kind {t : Token} (h : t.kind = .semicolon) (s : Stmt) (m : Mistake)
    (rest : List Token) : terminated s m endLine (t :: rest) = .done s rest := by
  simp [terminated, expect, h]

/-- A name and its initial value are read up to a comma or a semicolon. -/
theorem declarator_of_fits {d : Declaration} {ts rest : List Token} (hForm : d.WellFormed)
    (hFits : List.Forall₂ Mark.Fits d.marks ts) (hStops : Stops .assignment rest) :
    declarator endLine (ts ++ rest) = .done d rest := by
  obtain ⟨_, init⟩ := d
  obtain ⟨hName, hInit⟩ := hForm
  obtain ⟨name, us, rfl, hMore, rfl⟩ := List.forall₂_cons_left_iff.1 hFits
  have hExpect : expect .identifier .noVariableName endLine (name :: (us ++ rest)) =
      .done name (us ++ rest) := by
    simp only at hName
    simp [expect, hName]
  rw [declarator, List.cons_append, hExpect, Reading.bind_done]
  cases init with
  | none =>
      rw [List.forall₂_nil_left_iff.1 hMore, List.nil_append]
      cases rest with
      | nil => rfl
      | cons t rest =>
          have hKind : t.kind ≠ .equal := hStops.kind_ne rfl
          simp only [initializer, hKind, if_false]
  | some e =>
      obtain ⟨t, vs, rfl, hEqual, hVs⟩ := exists_of_fits_cons hMore
      have hRead : expr endLine .assignment (vs ++ rest) = .done e rest :=
        (reads_of_fits (hInit e rfl) hVs).whole rest hStops
      rw [initializer.eq_def]
      simp only [List.cons_append, hEqual, if_true, hRead, Reading.map_done]

/-- Declared names are read up to what is no comma. -/
theorem declarators_of_fits {ds : List Declaration} {ts rest : List Token} (hSome : ds ≠ [])
    (hForm : ∀ d ∈ ds, d.WellFormed) (hFits : List.Forall₂ Mark.Fits (Declaration.marksAll ds) ts)
    (hStops : Stops .comma rest) : declarators endLine (ts ++ rest) = .done ds rest := by
  induction ds generalizing ts with
  | nil => exact absurd rfl hSome
  | cons d ds ih =>
      have hHead : d.WellFormed := hForm d (by simp)
      cases ds with
      | nil =>
          rw [declarators_eq,
            declarator_of_fits hHead hFits (hStops.tighten (by decide)), Reading.bind_done]
          cases rest with
          | nil => rfl
          | cons t rest =>
              have hKind : t.kind ≠ .comma := hStops.kind_ne rfl
              simp only [hKind, if_false]
      | cons d' ds =>
          obtain ⟨us, _, rfl, hUs, hMore⟩ := forall₂_append_left_iff.1 hFits
          obtain ⟨t, vs, rfl, hComma, hVs⟩ := exists_of_fits_cons hMore
          have hLevel : Level.ofContinuation? t.kind = some .comma := by
            rw [hComma]
            rfl
          have hRest := ih (by simp) (fun d hd => hForm d (by simp [hd])) hVs
          rw [declarators_eq, List.append_assoc, List.cons_append,
            declarator_of_fits hHead hUs (stops_of_some hLevel (by decide) _)]
          simp only [Reading.bind_done, hComma, if_true, hRest]

theorem declaring_of_length {ds : List Declaration} (h : 2 ≤ ds.length) :
    declaring ds = .declareAll ds := by
  match ds, h with
  | _ :: _ :: _, _ => rfl

/-- A declaration is read up to its semicolon. -/
theorem declarationStatement_of_fits {ds : List Declaration} {ts : List Token} {t : Token}
    (hSome : ds ≠ []) (hForm : ∀ d ∈ ds, d.WellFormed)
    (hFits : List.Forall₂ Mark.Fits (Declaration.marksAll ds) ts) (hEnd : t.kind = .semicolon)
    (rest : List Token) :
    declarationStatement endLine (ts ++ t :: rest) = .done (declaring ds) rest := by
  have hStops : Stops .comma (t :: rest) := stops_of_none (by rw [hEnd]; rfl) _ _
  rw [declarationStatement, declarators_of_fits hSome hForm hFits hStops, Reading.bind_done,
    terminated_of_kind hEnd]

/-- A statement begins with a token, and no statement with the end of a block. -/
theorem exists_head_of_fits {s : Stmt} {ts : List Token} (hForm : s.WellFormed)
    (hFits : List.Forall₂ Mark.Fits s.marks ts) : ∃ t us, ts = t :: us ∧ t.kind ≠ .rightBrace := by
  have hWord : ∀ {k : Kind} {ms : List Mark}, k ≠ .rightBrace →
      List.Forall₂ Mark.Fits (.fixed k :: ms) ts → ∃ t us, ts = t :: us ∧ t.kind ≠ .rightBrace := by
    intro k ms hk hFits
    obtain ⟨t, us, rfl, hKind, -⟩ := exists_of_fits_cons hFits
    exact ⟨t, us, rfl, by rw [hKind]; exact hk⟩
  cases s with
  | expression e =>
      obtain ⟨us, vs, rfl, hUs, -⟩ := forall₂_append_left_iff.1 hFits
      obtain ⟨t, us, rfl, hKind⟩ := beginsExpr_of_fits hForm hUs
      exact ⟨t, us ++ vs, rfl, ne_of_mem_of_not_mem hKind (by decide)⟩
  | print e => exact hWord (by decide) hFits
  | declare d => exact hWord (by decide) hFits
  | declareAll ds => exact hWord (by decide) hFits
  | block body => exact hWord (by decide) hFits

/-- The item of a statement that was read without a mistake. -/
def Item.kept (s : Stmt) : Item := ⟨some s, []⟩

theorem filterMap_kept (ss : List Stmt) : (ss.map Item.kept).filterMap Item.stmt? = ss := by
  induction ss with
  | nil => rfl
  | cons s ss ih => simp [Item.kept, ih]

theorem flatMap_kept (ss : List Stmt) : (ss.map Item.kept).flatMap Item.reports = [] := by
  simp [Item.kept]

/-- A block without gaps is read up to its closing brace. -/
theorem closeBlock_kept {t : Token} (h : t.kind = .rightBrace) (body : List Stmt)
    (rest : List Token) :
    closeBlock endLine (body.map Item.kept) (t :: rest) = .done (.block body) rest := by
  have hWhole : ((body.map Item.kept).any fun item => item.stmt?.isNone) = false := by
    simp [Item.kept]
  simp only [closeBlock, expect, h, if_true, Reading.map_done, filterMap_kept, flatMap_kept, hWhole]
  rfl

/-- An expression statement is not taken for any other. -/
theorem statement_of_beginsExpr {ts : List Token} (h : BeginsExpr ts) (rest : List Token) :
    statement endLine (ts ++ rest) = expressionStatement endLine (ts ++ rest) := by
  obtain ⟨t, us, rfl, hKind⟩ := h
  have hVar : t.kind ≠ .kwVar := ne_of_mem_of_not_mem hKind (by decide)
  have hPrint : t.kind ≠ .kwPrint := ne_of_mem_of_not_mem hKind (by decide)
  have hBrace : t.kind ≠ .leftBrace := ne_of_mem_of_not_mem hKind (by decide)
  simp only [List.cons_append, statement_cons, hVar, hPrint, hBrace, if_false]

mutual

/-- Statements are read back, whatever follows them. -/
theorem statement_of_fits : ∀ (s : Stmt) {ts : List Token}, s.WellFormed →
    List.Forall₂ Mark.Fits s.marks ts → ∀ rest, statement endLine (ts ++ rest) = .done s rest
  | .expression e, ts, hForm, hFits, rest => by
      obtain ⟨us, t, rfl, hEnd, hUs⟩ := exists_of_fits_append hFits
      have hRead : expr endLine .comma (us ++ t :: rest) = .done e (t :: rest) :=
        (reads_of_fits hForm hUs).whole _ (stops_of_none (by rw [hEnd]; rfl) _ _)
      rw [List.append_assoc, statement_of_beginsExpr (beginsExpr_of_fits hForm hUs),
        expressionStatement, List.cons_append, List.nil_append, hRead, Reading.bind_done,
        terminated_of_kind hEnd]
  | .print e, ts, hForm, hFits, rest => by
      obtain ⟨p, _, rfl, hPrint, hMore⟩ := exists_of_fits_cons hFits
      obtain ⟨us, t, rfl, hEnd, hUs⟩ := exists_of_fits_append hMore
      have hRead : expr endLine .comma (us ++ t :: rest) = .done e (t :: rest) :=
        (reads_of_fits hForm hUs).whole _ (stops_of_none (by rw [hEnd]; rfl) _ _)
      rw [List.cons_append, statement_cons, hPrint, if_neg (by decide), if_pos rfl,
        printStatement, List.append_assoc, List.cons_append, List.nil_append, hRead,
        Reading.bind_done, terminated_of_kind hEnd]
  | .declare d, ts, hForm, hFits, rest => by
      obtain ⟨v, _, rfl, hVar, hMore⟩ := exists_of_fits_cons hFits
      obtain ⟨us, t, rfl, hEnd, hUs⟩ := exists_of_fits_append hMore
      have hAll : ∀ d' ∈ [d], d'.WellFormed := by
        intro d' hd
        rw [List.mem_singleton.1 hd]
        exact hForm
      rw [List.cons_append, statement_cons, hVar, if_pos rfl, List.append_assoc,
        List.cons_append, List.nil_append, declarationStatement_of_fits (by simp) hAll hUs hEnd]
      rfl
  | .declareAll ds, ts, hForm, hFits, rest => by
      obtain ⟨hLength, hAll⟩ := hForm
      obtain ⟨v, _, rfl, hVar, hMore⟩ := exists_of_fits_cons hFits
      obtain ⟨us, t, rfl, hEnd, hUs⟩ := exists_of_fits_append hMore
      have hSome : ds ≠ [] := by
        rintro rfl
        exact absurd hLength (by decide)
      rw [List.cons_append, statement_cons, hVar, if_pos rfl, List.append_assoc,
        List.cons_append, List.nil_append, declarationStatement_of_fits hSome hAll hUs hEnd,
        declaring_of_length hLength]
  | .block body, ts, hForm, hFits, rest => by
      obtain ⟨b, _, rfl, hOpen, hMore⟩ := exists_of_fits_cons hFits
      obtain ⟨us, c, rfl, hClose, hUs⟩ := exists_of_fits_append hMore
      have hEnd : items endLine true (c :: rest) = ([], c :: rest) := by
        simp [items_cons, hClose]
      have hItems := items_of_fits body hForm hUs true (c :: rest)
      rw [hEnd, List.append_nil] at hItems
      rw [List.cons_append, statement_cons, hOpen, if_neg (by decide), if_neg (by decide),
        if_pos rfl, List.append_assoc, List.cons_append, List.nil_append, hItems,
        closeBlock_kept hClose]

/-- Lists of statements are read back in front of whatever follows them. -/
theorem items_of_fits : ∀ (ss : List Stmt) {ts : List Token}, Stmt.WellFormedAll ss →
    List.Forall₂ Mark.Fits (Stmt.marksAll ss) ts → ∀ nested rest,
    items endLine nested (ts ++ rest) =
      (ss.map Item.kept ++ (items endLine nested rest).1, (items endLine nested rest).2)
  | [], ts, _, hFits, nested, rest => by
      rw [List.forall₂_nil_left_iff.1 hFits]
      rfl
  | s :: ss, ts, hForm, hFits, nested, rest => by
      obtain ⟨us, vs, rfl, hUs, hVs⟩ := forall₂_append_left_iff.1 hFits
      have hRead := statement_of_fits s hForm.1 hUs (vs ++ rest)
      have hItems := items_of_fits ss hForm.2 hVs nested rest
      obtain ⟨t, us, rfl, hKind⟩ := exists_head_of_fits hForm.1 hUs
      rw [List.cons_append] at hRead
      have hOpen : ¬(nested = true ∧ t.kind = .rightBrace) := fun h => hKind h.2
      rw [List.append_assoc, List.cons_append, items_cons, if_neg hOpen, hRead]
      show (Item.kept s :: (items endLine nested (vs ++ rest)).1,
        (items endLine nested (vs ++ rest)).2) = _
      rw [hItems]
      rfl

end

/-! ## Programs -/

/--
**Completeness.** Every well-formed program, written out as the tokens it stands for
and closed by an end mark, is read as exactly that program, and no mistake is
reported. The text and the line of punctuation, words and literals are free.
-/
theorem parse_of_fits {p : List Stmt} {ts : List Token} {mark : Token}
    (hForm : ∀ s ∈ p, s.WellFormed) (hFits : List.Forall₂ Mark.Fits (Stmt.marksAll p) ts)
    (hEnd : mark.kind = .endOfFile) : parse (ts ++ [mark]) = ⟨p, []⟩ := by
  have hAll : Stmt.WellFormedAll p := Stmt.wellFormedAll_iff.2 hForm
  have hBefore : beforeEnd (ts ++ [mark]) = ts :=
    beforeEnd_of_fits hFits (isInner_stmts p hAll) hEnd
  have hItems : items (endLineOf (ts ++ [mark])) false ts = (p.map Item.kept, []) := by
    have h := @items_of_fits (endLineOf (ts ++ [mark])) p ts hAll hFits false []
    rw [items_nil, List.append_nil, List.append_nil] at h
    exact h
  simp only [parse, hBefore, hItems, filterMap_kept, flatMap_kept]

/-- `var a = x - y - "z", b; { print (a, nil) ? -a : b == a; }`, with odd texts and lines
on the punctuation. -/
theorem parse_of_fits_nested :
    parse ([⟨.kwVar, "VAR", none, 7⟩, ⟨.identifier, "a", none, 1⟩, ⟨.equal, "", none, 9⟩,
        ⟨.identifier, "x", none, 1⟩, ⟨.minus, "-", none, 1⟩, ⟨.identifier, "y", none, 1⟩,
        ⟨.minus, "-", none, 2⟩, ⟨.text, "?", some (.text "z"), 0⟩, ⟨.comma, ";", none, 1⟩,
        ⟨.identifier, "b", none, 1⟩, ⟨.semicolon, ";", none, 1⟩, ⟨.leftBrace, "", none, 3⟩,
        ⟨.kwPrint, "print", none, 3⟩, ⟨.leftParen, "(", none, 3⟩, ⟨.identifier, "a", none, 3⟩,
        ⟨.comma, ",", none, 3⟩, ⟨.kwNil, "nil", none, 3⟩, ⟨.rightParen, ")", none, 3⟩,
        ⟨.question, "?", none, 3⟩, ⟨.minus, "-", none, 3⟩, ⟨.identifier, "a", none, 3⟩,
        ⟨.colon, ":", none, 3⟩, ⟨.identifier, "b", none, 3⟩, ⟨.equalEqual, "==", none, 3⟩,
        ⟨.identifier, "a", none, 4⟩, ⟨.semicolon, ";", none, 4⟩, ⟨.rightBrace, "", none, 4⟩] ++
        [Token.endOfFile 5]) =
      ⟨[.declareAll
          [⟨⟨.identifier, "a", none, 1⟩, some
            (.binary .sub ⟨.minus, "-", none, 2⟩
              (.binary .sub ⟨.minus, "-", none, 1⟩ (.variable ⟨.identifier, "x", none, 1⟩)
                (.variable ⟨.identifier, "y", none, 1⟩))
              (.literal (.text "z")))⟩,
            ⟨⟨.identifier, "b", none, 1⟩, none⟩],
        .block [.print (.conditional
          (.group (.comma (.variable ⟨.identifier, "a", none, 3⟩) (.literal .nil)))
          (.unary .neg ⟨.minus, "-", none, 3⟩ (.variable ⟨.identifier, "a", none, 3⟩))
          (.binary .eq ⟨.equalEqual, "==", none, 3⟩ (.variable ⟨.identifier, "b", none, 3⟩)
            (.variable ⟨.identifier, "a", none, 4⟩)))]], []⟩ :=
  parse_of_fits (by decide)
    (by simp [Stmt.marksAll, Stmt.marks, Declaration.marksAll, Declaration.marks, Expr.marks,
      Mark.Fits, IsLiteral])
    rfl

end TinyScript.Grammar
