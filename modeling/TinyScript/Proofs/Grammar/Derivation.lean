import TinyScript.Proofs.Grammar.Productions

/-!
# Derivations

Everything that the productions can read, mistakes included, as inductive relations
between trees and the tokens they were read from. A derivation also records what was
reported and whether the statement is damaged, so every rule of the grammar stands
here once with all it does, and so do the two rules for mistakes that stop nothing.

* `Phrase` derives expressions. `Phrase.invalid` is an assignment to what is no
  variable: the tree is the target alone. `Phrase.orphan` is an operator with nothing
  on its left: the tree is a placeholder.
* `Clause` and `Clauses` derive declared names, `Sentence` the statements that end at a
  semicolon.
* `Passage` derives lists of items. A block of items is one item; it leaves a gap if
  there is a gap in it. `Passage.broken` is a statement that was given up.

The productions only ever read what is derived: `expr_yields` for expressions,
`statement_yields_and_exists_passage` for statements and `passage_parse` for programs.
What the trees of a program look like, and what becomes of its tokens, then follows by
induction on derivations, without another look at the productions.
-/

namespace TinyScript.Grammar

open Diagnostic (Mistake)
open Token (Kind)

/-! ## Expressions -/

/-- `Phrase l e ts reports damaged`: a level reads the tokens `ts` as the expression `e`. -/
inductive Phrase : Level → Expr → List Token → List Diagnostic → Bool → Prop
  | literal {t : Token} {v : Value} (h : literal? t = some v) :
    Phrase .primary (.literal v) [t] [] false
  | name {t : Token} (h : t.kind = .identifier) : Phrase .primary (.variable t) [t] [] false
  | group {t c : Token} {e : Expr} {ts : List Token} {reports : List Diagnostic} {damaged : Bool}
    (hOpen : t.kind = .leftParen) (inner : Phrase .comma e ts reports damaged)
    (hClose : c.kind = .rightParen) :
    Phrase .primary (.group e) (t :: (ts ++ [c])) reports damaged
  | orphan {t : Token} {l : Level} {e : Expr} {ts : List Token} {reports : List Diagnostic}
    {damaged : Bool} (h : Level.ofOrphan? t.kind = some l) (operand : Phrase l e ts reports damaged) :
    Phrase .primary .missing (t :: ts) (Mistake.noLeftOperand.atToken t :: reports) true
  | unary {t : Token} {op : UnaryOp} {e : Expr} {ts : List Token} {reports : List Diagnostic}
    {damaged : Bool} (h : UnaryOp.ofKind? t.kind = some op)
    (operand : Phrase .unary e ts reports damaged) :
    Phrase .unary (.unary op t e) (t :: ts) reports damaged
  | join {l : Level} {t : Token} {join : Expr → Expr → Expr} {a b : Expr} {ts us : List Token}
    {reports reports' : List Diagnostic} {damaged damaged' : Bool} (h : l.join? t = some join)
    (left : Phrase l a ts reports damaged) (right : Phrase l.tighter b us reports' damaged') :
    Phrase l (join a b) (ts ++ t :: us) (reports ++ reports') (damaged || damaged')
  | conditional {q c : Token} {a b e : Expr} {ts us vs : List Token}
    {reports reports' reports'' : List Diagnostic} {damaged damaged' damaged'' : Bool}
    (condition : Phrase .equality a ts reports damaged) (hQuestion : q.kind = .question)
    (thenBranch : Phrase .comma b us reports' damaged') (hColon : c.kind = .colon)
    (elseBranch : Phrase .conditional e vs reports'' damaged'') :
    Phrase .conditional (.conditional a b e) (ts ++ q :: (us ++ c :: vs))
      (reports ++ (reports' ++ reports'')) (damaged || (damaged' || damaged''))
  | assign {t name : Token} {e : Expr} {ts us : List Token} {reports reports' : List Diagnostic}
    {damaged damaged' : Bool} (target : Phrase .conditional (.variable name) ts reports damaged)
    (hEqual : t.kind = .equal) (value : Phrase .assignment e us reports' damaged') :
    Phrase .assignment (.assign name e) (ts ++ t :: us) (reports ++ reports') (damaged || damaged')
  | invalid {t : Token} {target e : Expr} {ts us : List Token} {reports reports' : List Diagnostic}
    {damaged damaged' : Bool} (left : Phrase .conditional target ts reports damaged)
    (hEqual : t.kind = .equal) (value : Phrase .assignment e us reports' damaged') :
    Phrase .assignment target (ts ++ t :: us)
      (reports ++ (reports' ++ [Mistake.invalidTarget.atToken t])) (damaged || damaged')
  | tighter {l : Level} {e : Expr} {ts : List Token} {reports : List Diagnostic} {damaged : Bool}
    (h : Phrase l.tighter e ts reports damaged) : Phrase l e ts reports damaged

variable {endLine : Nat}

/-- Behind a target and an equals sign an assignment is derived, valid or not. -/
theorem yields_assignTo {t : Token} {target e : Expr} {ts us : List Token}
    {reports reports' : List Diagnostic} {damaged damaged' : Bool}
    (hTarget : Phrase .conditional target ts reports damaged) (hEqual : t.kind = .equal)
    (hValue : Phrase .assignment e us reports' damaged') (rest : List Token) :
    (assignTo target t e rest).Yields rest fun e read reports'' damaged'' =>
      Phrase .assignment e (ts ++ t :: (us ++ read)) (reports ++ (reports' ++ reports''))
        (damaged || (damaged' || damaged'')) := by
  unfold assignTo
  split
  · refine Reading.yields_done ?_
    simpa using Phrase.assign hTarget hEqual hValue
  · refine ⟨[], rfl, ?_⟩
    intro a ha
    cases ha
    simpa [Reading.done] using Phrase.invalid hTarget hEqual hValue

/-- What the primary level reads, if what stands inside is derived. -/
theorem yields_primary {t : Token} {rest : List Token}
    (ih : ∀ l, (expr endLine l rest).Yields rest (Phrase l)) :
    (expr endLine .primary (t :: rest)).Yields (t :: rest) (Phrase .primary) := by
  rw [expr_primary_cons]
  cases hLiteral : literal? t with
  | some v => exact (Reading.yields_done (.literal hLiteral)).cons
  | none =>
      by_cases hName : t.kind = .identifier
      · simp only [hName, if_true]
        exact (Reading.yields_done (.name hName)).cons
      by_cases hOpen : t.kind = .leftParen
      · simp only [hOpen, if_true]
        refine ((ih .comma).bind fun e read left reports damaged _ hInner => ?_).cons
        refine (yields_expect .rightParen _ left).map ?_
        rintro c _ _ _ ⟨hClose, rfl, rfl, rfl⟩
        simpa using Phrase.group hOpen hInner hClose
      simp only [hName, hOpen, if_false]
      cases hOrphan : Level.ofOrphan? t.kind with
      | none => exact Reading.yields_fail _ _
      | some l =>
          refine Reading.Yields.cons (Reading.Yields.afterDamage ?_)
          refine (ih l).bind fun e read left reports damaged _ hOperand => Reading.yields_done ?_
          simpa using Phrase.orphan hOrphan hOperand

/-- What the conditional level reads, if its parts are derived. -/
theorem yields_conditional {ts : List Token}
    (hFirst : (expr endLine .equality ts).Yields ts (Phrase .equality))
    (ih : ∀ l us, us.length < ts.length → (expr endLine l us).Yields us (Phrase l)) :
    (expr endLine .conditional ts).Yields ts (Phrase .conditional) := by
  rw [expr_conditional]
  refine hFirst.bind fun a read rest reports damaged hSplit hCondition => ?_
  have hAlone : Phrase .conditional a read reports damaged := .tighter hCondition
  cases rest with
  | nil => exact Reading.yields_done (by simpa using hAlone)
  | cons q after =>
      have hAfter : after.length < ts.length := by
        rw [hSplit, List.length_append, List.length_cons]
        omega
      by_cases hQuestion : q.kind = .question
      · simp only [hQuestion, if_true]
        refine ((ih .comma after hAfter).bind fun b us middle reports' damaged' hSplit' hThen => ?_).cons
        cases middle with
        | nil => exact Reading.yields_fail _ _
        | cons c final =>
            have hFinal : final.length < ts.length := by
              rw [hSplit', List.length_append, List.length_cons] at hAfter
              omega
            by_cases hColon : c.kind = .colon
            · simp only [hColon, if_true]
              refine ((ih .conditional final hFinal).bind
                fun e vs left reports'' damaged'' _ hElse => Reading.yields_done ?_).cons
              simpa using Phrase.conditional hCondition hQuestion hThen hColon hElse
            · simp only [hColon, if_false]
              exact Reading.yields_fail _ _
      · simp only [hQuestion, if_false]
        exact Reading.yields_done (by simpa using hAlone)

/-- What the assignment level reads, if its parts are derived. -/
theorem yields_assignment {ts : List Token}
    (hFirst : (expr endLine .conditional ts).Yields ts (Phrase .conditional))
    (ih : ∀ us, us.length < ts.length →
      (expr endLine .assignment us).Yields us (Phrase .assignment)) :
    (expr endLine .assignment ts).Yields ts (Phrase .assignment) := by
  rw [expr_assignment]
  refine hFirst.bind fun target read rest reports damaged hSplit hTarget => ?_
  have hAlone : Phrase .assignment target read reports damaged := .tighter hTarget
  cases rest with
  | nil => exact Reading.yields_done (by simpa using hAlone)
  | cons t after =>
      have hAfter : after.length < ts.length := by
        rw [hSplit, List.length_append, List.length_cons]
        omega
      by_cases hEqual : t.kind = .equal
      · simp only [hEqual, if_true]
        exact ((ih after hAfter).bind fun e us left reports' damaged' _ hValue =>
          yields_assignTo hTarget hEqual hValue left).cons
      · simp only [hEqual, if_false]
        exact Reading.yields_done (by simpa using hAlone)

/--
**Expressions are derived.** A level reads phrases of the level. The loop over the
operators of a chain carries the derivation of everything to its left.
-/
theorem expr_yields_and_chain_yields :
    (∀ l ts, (expr endLine l ts).Yields ts (Phrase l)) ∧
      ∀ l left ts, ∀ {front : List Token} {reports : List Diagnostic} {damaged : Bool},
        Phrase l left front reports damaged →
        (chain endLine l left ts).Yields ts fun e read reports' damaged' =>
          Phrase l e (front ++ read) (reports ++ reports') (damaged || damaged') := by
  refine productions_induction ?_ ?_
  · intro l ts ihShorter ihTighter ihChain
    by_cases hChain : l.isChain
    · rw [expr_of_isChain hChain]
      refine (ihTighter l.tighter (Level.rank_tighter_lt hChain)).bind ?_
      intro left read rest reports damaged hSplit hLeft
      refine ihChain left rest ?_ hLeft.tighter
      rw [hSplit, List.length_append]
      omega
    · cases l
      case assignment =>
        exact yields_assignment (ihTighter .conditional (by decide)) (ihShorter .assignment)
      case conditional => exact yields_conditional (ihTighter .equality (by decide)) ihShorter
      case unary =>
        cases ts with
        | nil =>
            rw [expr_unary_nil, expr_primary_nil]
            exact Reading.yields_fail _ _
        | cons t rest =>
            rw [expr_unary_cons]
            cases hKind : UnaryOp.ofKind? t.kind with
            | none => exact (ihTighter .primary (by decide)).imp fun _ _ _ _ h => .tighter h
            | some op =>
                refine ((ihShorter .unary rest (by simp)).bind
                  fun e read left reports damaged _ hOperand => Reading.yields_done ?_).cons
                simpa using Phrase.unary hKind hOperand
      case primary =>
        cases ts with
        | nil =>
            rw [expr_primary_nil]
            exact Reading.yields_fail _ _
        | cons t rest => exact yields_primary fun k => ihShorter k rest (by simp)
      all_goals exact absurd rfl hChain
  · intro l left ts ihShorter ihChain front reports damaged hLeft
    cases ts with
    | nil =>
        rw [chain_nil]
        exact Reading.yields_done (by simpa using hLeft)
    | cons t rest =>
        rw [chain_cons]
        cases hJoin : l.join? t with
        | none => exact Reading.yields_done (by simpa using hLeft)
        | some join =>
            refine ((ihShorter l.tighter rest (by simp)).bind
              fun right read after reports' damaged' hSplit hRight => ?_).cons
            have hAfter : after.length < (t :: rest).length := by
              rw [hSplit, List.length_cons, List.length_append]
              omega
            refine (ihChain (join left right) after hAfter (.join hJoin hLeft hRight)).imp ?_
            intro e more reports'' damaged'' hPhrase
            simpa [Bool.or_assoc] using hPhrase

theorem expr_yields (l : Level) (ts : List Token) : (expr endLine l ts).Yields ts (Phrase l) :=
  expr_yields_and_chain_yields.1 l ts

/-! ## Simple statements -/

/-- A name and its initial value, read from the tokens. -/
inductive Clause : Declaration → List Token → List Diagnostic → Bool → Prop
  | bare {name : Token} (h : name.kind = .identifier) : Clause ⟨name, none⟩ [name] [] false
  | initialized {name t : Token} {e : Expr} {ts : List Token} {reports : List Diagnostic}
    {damaged : Bool} (h : name.kind = .identifier) (hEqual : t.kind = .equal)
    (value : Phrase .assignment e ts reports damaged) :
    Clause ⟨name, some e⟩ (name :: t :: ts) reports damaged

/-- Names with their initial values and commas between them, read from the tokens. -/
inductive Clauses : List Declaration → List Token → List Diagnostic → Bool → Prop
  | one {d : Declaration} {ts : List Token} {reports : List Diagnostic} {damaged : Bool}
    (h : Clause d ts reports damaged) : Clauses [d] ts reports damaged
  | more {d : Declaration} {ds : List Declaration} {t : Token} {ts us : List Token}
    {reports reports' : List Diagnostic} {damaged damaged' : Bool}
    (first : Clause d ts reports damaged) (hComma : t.kind = .comma)
    (others : Clauses ds us reports' damaged') :
    Clauses (d :: ds) (ts ++ t :: us) (reports ++ reports') (damaged || damaged')

/-- A statement that ends at a semicolon, read from the tokens. -/
inductive Sentence : Stmt → List Token → List Diagnostic → Bool → Prop
  | expression {t : Token} {e : Expr} {ts : List Token} {reports : List Diagnostic} {damaged : Bool}
    (phrase : Phrase .comma e ts reports damaged) (hEnd : t.kind = .semicolon) :
    Sentence (.expression e) (ts ++ [t]) reports damaged
  | print {p t : Token} {e : Expr} {ts : List Token} {reports : List Diagnostic} {damaged : Bool}
    (hPrint : p.kind = .kwPrint) (phrase : Phrase .comma e ts reports damaged)
    (hEnd : t.kind = .semicolon) : Sentence (.print e) (p :: (ts ++ [t])) reports damaged
  | declaration {v t : Token} {ds : List Declaration} {ts : List Token} {reports : List Diagnostic}
    {damaged : Bool} (hVar : v.kind = .kwVar) (clauses : Clauses ds ts reports damaged)
    (hEnd : t.kind = .semicolon) : Sentence (declaring ds) (v :: (ts ++ [t])) reports damaged

/-- A declaration declares at least one name. -/
theorem Clauses.ne_nil {ds : List Declaration} {ts : List Token} {reports : List Diagnostic}
    {damaged : Bool} (h : Clauses ds ts reports damaged) : ds ≠ [] := by
  cases h <;> simp

theorem yields_declarator (ts : List Token) : (declarator endLine ts).Yields ts Clause := by
  rw [declarator]
  refine (yields_expect .identifier _ ts).bind ?_
  rintro name _ rest _ _ - ⟨hName, rfl, rfl, rfl⟩
  have hBare : Clause ⟨name, none⟩ [name] [] false := .bare hName
  unfold initializer
  split
  · exact Reading.yields_done (by simpa using hBare)
  · next t after =>
      by_cases hEqual : t.kind = .equal
      · simp only [hEqual, if_true]
        refine Reading.Yields.cons ((expr_yields .assignment after).map ?_)
        intro e read reports damaged hValue
        simpa using Clause.initialized hName hEqual hValue
      · simp only [hEqual, if_false]
        exact Reading.yields_done (by simpa using hBare)

theorem yields_declarators (ts : List Token) : (declarators endLine ts).Yields ts Clauses := by
  obtain ⟨n, hLength⟩ : ∃ n, ts.length = n := ⟨_, rfl⟩
  induction n using Nat.strongRecOn generalizing ts with
  | ind n ih =>
      rw [declarators_eq]
      refine (yields_declarator ts).bind fun d read rest reports damaged hSplit hFirst => ?_
      have hOne : Clauses [d] read reports damaged := .one hFirst
      cases rest with
      | nil => exact Reading.yields_done (by simpa using hOne)
      | cons t after =>
          have hAfter : after.length < n := by
            rw [← hLength, hSplit, List.length_append, List.length_cons]
            omega
          by_cases hComma : t.kind = .comma
          · simp only [hComma, if_true]
            refine ((ih _ hAfter after rfl).bind
              fun ds us left reports' damaged' _ hOthers => Reading.yields_done ?_).cons
            simpa using Clauses.more hFirst hComma hOthers
          · simp only [hComma, if_false]
            exact Reading.yields_done (by simpa using hOne)

/-- A semicolon ends a statement and adds nothing but itself. -/
theorem yields_terminated (s : Stmt) (m : Mistake) (ts : List Token) :
    (terminated s m endLine ts).Yields ts fun s' read reports damaged =>
      s' = s ∧ (∃ t, t.kind = .semicolon ∧ read = [t]) ∧ reports = [] ∧ damaged = false := by
  refine (yields_expect .semicolon m ts).map ?_
  rintro t _ _ _ ⟨hEnd, rfl, rfl, rfl⟩
  exact ⟨rfl, ⟨t, hEnd, rfl⟩, rfl, rfl⟩

theorem yields_expressionStatement (ts : List Token) :
    (expressionStatement endLine ts).Yields ts Sentence := by
  refine (expr_yields .comma ts).bind fun e read rest reports damaged _ hPhrase => ?_
  refine (yields_terminated _ _ rest).imp ?_
  rintro _ _ _ _ ⟨rfl, ⟨t, hEnd, rfl⟩, rfl, rfl⟩
  simpa using Sentence.expression hPhrase hEnd

theorem yields_printStatement {p : Token} (hPrint : p.kind = .kwPrint) (ts : List Token) :
    (printStatement endLine ts).Yields (p :: ts) Sentence := by
  refine ((expr_yields .comma ts).bind fun e read rest reports damaged _ hPhrase => ?_).cons
  refine (yields_terminated _ _ rest).imp ?_
  rintro _ _ _ _ ⟨rfl, ⟨t, hEnd, rfl⟩, rfl, rfl⟩
  simpa using Sentence.print hPrint hPhrase hEnd

theorem yields_declarationStatement {v : Token} (hVar : v.kind = .kwVar) (ts : List Token) :
    (declarationStatement endLine ts).Yields (v :: ts) Sentence := by
  refine ((yields_declarators ts).bind fun ds read rest reports damaged _ hClauses => ?_).cons
  refine (yields_terminated _ _ rest).imp ?_
  rintro _ _ _ _ ⟨rfl, ⟨t, hEnd, rfl⟩, rfl, rfl⟩
  simpa using Sentence.declaration hVar hClauses hEnd

/-! ## Items -/

/-- The item of a statement that nothing stopped. -/
def Item.ofStmt (s : Stmt) (reports : List Diagnostic) (damaged : Bool) : Item :=
  ⟨if damaged then none else some s, reports⟩

/-- The statement that the items of a block make up. -/
def Item.ofBlock (body : List Item) : Item :=
  .ofStmt (.block (body.filterMap Item.stmt?)) (body.flatMap Item.reports)
    (body.any fun item => item.stmt?.isNone)

/-- Items read from the tokens, one after the other. -/
inductive Passage : List Item → List Token → Prop
  | nil : Passage [] []
  | sentence {s : Stmt} {ts us : List Token} {reports : List Diagnostic} {damaged : Bool}
    {items : List Item} (h : Sentence s ts reports damaged) (others : Passage items us) :
    Passage (.ofStmt s reports damaged :: items) (ts ++ us)
  | block {b c : Token} {ts us : List Token} {body items : List Item} (hOpen : b.kind = .leftBrace)
    (inner : Passage body ts) (hClose : c.kind = .rightBrace) (others : Passage items us) :
    Passage (.ofBlock body :: items) ((b :: (ts ++ [c])) ++ us)
  | broken {ts us : List Token} {reports : List Diagnostic} {d : Diagnostic} {items : List Item}
    (hSome : ts ≠ []) (others : Passage items us) :
    Passage (⟨none, reports ++ [d]⟩ :: items) (ts ++ us)

theorem Passage.append {items items' : List Item} {ts us : List Token} (h : Passage items ts)
    (h' : Passage items' us) : Passage (items ++ items') (ts ++ us) := by
  induction h with
  | nil => exact h'
  | sentence hSentence _ ih =>
      rw [List.append_assoc]
      exact .sentence hSentence ih
  | block hOpen inner hClose _ _ ih =>
      rw [List.append_assoc]
      exact .block hOpen inner hClose ih
  | broken hSome _ ih =>
      rw [List.append_assoc]
      exact .broken hSome ih

/-- What holds of every item at every depth: a statement that nothing stopped, a block if it
holds of all items inside, and what was given up. -/
theorem Passage.forall_mem {P : Item → Prop} {items : List Item} {ts : List Token}
    (h : Passage items ts)
    (hSentence : ∀ {s ts reports damaged}, Sentence s ts reports damaged →
      P (.ofStmt s reports damaged))
    (hBlock : ∀ {body}, (∀ item ∈ body, P item) → P (.ofBlock body))
    (hBroken : ∀ reports d, P ⟨none, reports ++ [d]⟩) : ∀ item ∈ items, P item := by
  induction h with
  | nil =>
      intro item hItem
      cases hItem
  | sentence h _ ih => exact List.forall_mem_cons.2 ⟨hSentence h, ih⟩
  | block _ _ _ _ ihInner ih => exact List.forall_mem_cons.2 ⟨hBlock ihInner, ih⟩
  | broken _ _ ih => exact List.forall_mem_cons.2 ⟨hBroken _ _, ih⟩

/-- What is left after skipping is a last part of the tokens. -/
theorem synchronize_suffix (ts : List Token) : synchronize ts <:+ ts := by
  induction ts with
  | nil => exact List.suffix_rfl
  | cons t rest ih =>
      have hRest : rest <:+ t :: rest := List.suffix_cons t rest
      rw [synchronize]
      split
      · exact hRest
      · split
        · exact hRest
        · exact ih.trans hRest

/-- What becomes of a statement is a passage of one item, whether the statement was kept,
dropped or given up. -/
theorem exists_passage_settle {r : Reading Stmt} {ts : List Token}
    (h : r.Yields ts fun s read reports damaged => Passage [.ofStmt s reports damaged] read)
    (hLength : (settle r).2.length < ts.length) :
    ∃ read, ts = read ++ (settle r).2 ∧ Passage [(settle r).1] read := by
  obtain ⟨read, hSplit, hTree⟩ := h
  unfold settle at hLength ⊢
  split
  · next s hOk => exact ⟨read, hSplit, hTree s hOk⟩
  · next d hError =>
      obtain ⟨skipped, hSkip⟩ := synchronize_suffix r.rest
      rw [hError] at hLength
      have hWhole : ts = (read ++ skipped) ++ synchronize r.rest := by
        rw [List.append_assoc, hSkip, hSplit]
      refine ⟨read ++ skipped, hWhole, ?_⟩
      have hSome : read ++ skipped ≠ [] := by
        intro hNil
        rw [hNil, List.nil_append] at hWhole
        rw [hWhole] at hLength
        exact Nat.lt_irrefl _ hLength
      rw [← List.append_nil (read ++ skipped)]
      exact .broken hSome .nil

/-- A closing brace turns the items of a block into one item. -/
theorem yields_closeBlock (body : List Item) (ts : List Token) :
    (closeBlock endLine body ts).Yields ts fun s read reports damaged =>
      (∃ c, c.kind = .rightBrace ∧ read = [c]) ∧ Item.ofStmt s reports damaged = .ofBlock body := by
  cases ts with
  | nil =>
      refine ⟨[], rfl, ?_⟩
      intro s hs
      cases hs
  | cons c rest =>
      by_cases hClose : c.kind = .rightBrace
      · simp only [closeBlock, expect, hClose, if_true, Reading.map_done]
        refine ⟨[c], rfl, ?_⟩
        intro s hs
        cases hs
        exact ⟨⟨c, hClose, rfl⟩, rfl⟩
      · simp only [closeBlock, expect, hClose, if_false]
        refine ⟨[], rfl, ?_⟩
        intro s hs
        cases hs

/-- Where a list of items ends: at the end of the tokens or, in a block, at its closing brace. -/
def ItemsEnd (nested : Bool) (rest : List Token) : Prop :=
  rest = [] ∨ nested = true ∧ ∃ c after, rest = c :: after ∧ c.kind = .rightBrace

/--
**Statements and items are derived.** The induction is on the number of tokens: a
block calls the loop on fewer tokens, and each turn of the loop leaves fewer tokens than
it was given.
-/
theorem statement_yields_and_exists_passage (ts : List Token) :
    ((statement endLine ts).Yields ts fun s read reports damaged =>
        Passage [.ofStmt s reports damaged] read) ∧
      ∀ nested, ∃ read, ts = read ++ (items endLine nested ts).2 ∧
        Passage (items endLine nested ts).1 read ∧ ItemsEnd nested (items endLine nested ts).2 := by
  obtain ⟨n, hLength⟩ : ∃ n, ts.length = n := ⟨_, rfl⟩
  induction n using Nat.strongRecOn generalizing ts with
  | ind n ih =>
      have hSentence : ∀ {r : Reading Stmt}, r.Yields ts Sentence →
          r.Yields ts fun s read reports damaged => Passage [.ofStmt s reports damaged] read := by
        intro r h
        refine h.imp fun s read reports damaged hSentence => ?_
        rw [← List.append_nil read]
        exact .sentence hSentence .nil
      have hStatement : (statement endLine ts).Yields ts fun s read reports damaged =>
          Passage [.ofStmt s reports damaged] read := by
        cases ts with
        | nil =>
            rw [statement_nil]
            exact hSentence (yields_expressionStatement [])
        | cons t rest =>
            rw [statement_cons]
            by_cases hVar : t.kind = .kwVar
            · rw [if_pos hVar]
              exact hSentence (yields_declarationStatement hVar rest)
            by_cases hPrint : t.kind = .kwPrint
            · rw [if_neg hVar, if_pos hPrint]
              exact hSentence (yields_printStatement hPrint rest)
            by_cases hOpen : t.kind = .leftBrace
            · rw [if_neg hVar, if_neg hPrint, if_pos hOpen]
              have hShorter : rest.length < n := by
                rw [← hLength]
                exact Nat.lt_succ_self _
              obtain ⟨inner, hInner, hBody, -⟩ := (ih _ hShorter rest rfl).2 true
              generalize (items endLine true rest).1 = body at hBody
              generalize (items endLine true rest).2 = left at hInner
              subst hInner
              refine ((yields_closeBlock body left).imp ?_).behind.cons
              rintro s _ reports damaged ⟨⟨c, hClose, rfl⟩, hItem⟩
              rw [hItem, ← List.append_nil (t :: (inner ++ [c]))]
              exact .block hOpen hBody hClose .nil
            · rw [if_neg hVar, if_neg hPrint, if_neg hOpen]
              exact hSentence (yields_expressionStatement (t :: rest))
      refine ⟨hStatement, fun nested => ?_⟩
      cases ts with
      | nil =>
          rw [items_nil]
          exact ⟨[], rfl, .nil, .inl rfl⟩
      | cons t rest =>
          rw [items_cons]
          by_cases hClose : nested = true ∧ t.kind = .rightBrace
          · rw [if_pos hClose]
            exact ⟨[], rfl, .nil, .inr ⟨hClose.1, t, rest, rfl, hClose.2⟩⟩
          · rw [if_neg hClose]
            have hSettle := @length_settle_statement endLine t rest
            obtain ⟨first, hFirst, hItem⟩ := exists_passage_settle hStatement hSettle
            rw [hLength] at hSettle
            obtain ⟨more, hMore, hItems, hEnd⟩ := (ih _ hSettle _ rfl).2 nested
            refine ⟨first ++ more, ?_, hItem.append hItems, hEnd⟩
            rw [List.append_assoc, ← hMore]
            exact hFirst

/-- A program is a passage of all the tokens before the end mark. -/
theorem passage_parse (ts : List Token) :
    Passage (items (endLineOf ts) false (beforeEnd ts)).1 (beforeEnd ts) := by
  obtain ⟨read, hSplit, hPassage, hEnd⟩ :=
    (@statement_yields_and_exists_passage (endLineOf ts) (beforeEnd ts)).2 false
  rcases hEnd with hNil | ⟨hNested, -⟩
  · rw [hNil, List.append_nil] at hSplit
    rw [← hSplit] at hPassage
    exact hPassage
  · cases hNested

end TinyScript.Grammar
