import TinyScript.Proofs.Grammar.Derivation

/-!
# No token is invented, doubled or moved

The marks of a program that was read are fitted by tokens of its source, one each and
in order. A mistake may only leave tokens out: the value of an invalid assignment, the
operand of an operator that has nothing on its left, a statement that was dropped with
all that is in it, and what recovery skips. Where nothing was reported, nothing was
left out.

Both halves are one induction on derivations. `Accounts` is the relation between marks
and tokens that it carries; whether tokens may be left out is a parameter of it, which
each rule fills with the lack of reports.
-/

namespace TinyScript.Grammar

open Token (Kind)

/-- Marks account for tokens: some of the tokens fit them, in order, and all of them do if
the account has to be exact. -/
structure Accounts (exact : Prop) (ms : List Mark) (ts : List Token) : Prop where
  some : List.SublistForall₂ Mark.Fits ms ts
  all : exact → List.Forall₂ Mark.Fits ms ts

namespace Accounts

variable {p q : Prop} {m : Mark} {ms ns : List Mark} {t : Token} {ts us : List Token}

theorem nil : Accounts p [] [] :=
  ⟨.nil, fun _ => .nil⟩

theorem cons (h : Accounts p ms ts) (hFits : m.Fits t) : Accounts p (m :: ms) (t :: ts) :=
  ⟨.cons hFits h.some, fun hExact => .cons hFits (h.all hExact)⟩

theorem single (hFits : m.Fits t) : Accounts p [m] [t] :=
  nil.cons hFits

/-- Where the account is not exact, tokens may be left out. -/
theorem dropped (h : ¬p) (ts : List Token) : Accounts p [] ts :=
  ⟨.nil, fun hExact => absurd hExact h⟩

theorem imp (h : Accounts p ms ts) (hImp : q → p) : Accounts q ms ts :=
  ⟨h.some, fun hExact => h.all (hImp hExact)⟩

theorem append (h : Accounts p ms ts) (h' : Accounts p ns us) :
    Accounts p (ms ++ ns) (ts ++ us) := by
  refine ⟨?_, fun hExact => List.rel_append (h.all hExact) (h'.all hExact)⟩
  obtain ⟨ts', hFits, hSub⟩ := List.sublistForall₂_iff.1 h.some
  obtain ⟨us', hFits', hSub'⟩ := List.sublistForall₂_iff.1 h'.some
  exact List.sublistForall₂_iff.2 ⟨ts' ++ us', List.rel_append hFits hFits', hSub.append hSub'⟩

theorem cons_word {k : Kind} (h : Accounts p ms ts) (hKind : t.kind = k) :
    Accounts p (.fixed k :: ms) (t :: ts) :=
  h.cons hKind

theorem append_word {k : Kind} (h : Accounts p ms ts) (hKind : t.kind = k) :
    Accounts p (ms ++ [.fixed k]) (ts ++ [t]) :=
  h.append (nil.cons_word hKind)

/-- Two accounts, each of which is exact if nothing was reported, make up a third. -/
theorem append_of_reports {r r' : List Diagnostic} (h : Accounts (r = []) ms ts)
    (h' : Accounts (r' = []) ns us) : Accounts (r ++ r' = []) (ms ++ ns) (ts ++ us) :=
  (h.imp fun hNil => (List.append_eq_nil_iff.1 hNil).1).append
    (h'.imp fun hNil => (List.append_eq_nil_iff.1 hNil).2)

end Accounts

/-! ## Expressions and simple statements -/

theorem Phrase.accounts {l : Level} {e : Expr} {ts : List Token} {reports : List Diagnostic}
    {damaged : Bool} (h : Phrase l e ts reports damaged) : Accounts (reports = []) e.marks ts := by
  induction h with
  | literal h => exact .single (literal?_eq_some_iff.1 h)
  | name h => exact .single rfl
  | group hOpen _ hClose ih => exact (ih.append_word hClose).cons_word hOpen
  | orphan h _ _ => exact .dropped (List.cons_ne_nil _ _) _
  | unary h _ ih => exact ih.cons rfl
  | join hJoin _ _ ihLeft ihRight =>
      rcases Level.join?_eq_some_iff.1 hJoin with ⟨rfl, hComma, rfl⟩ | ⟨op, _, rfl, rfl⟩
      · exact ihLeft.append_of_reports (ihRight.cons_word hComma)
      · exact ihLeft.append_of_reports (ihRight.cons rfl)
  | conditional _ hQuestion _ hColon _ ihCondition ihThen ihElse =>
      have hBranches := ihThen.append_of_reports (ihElse.cons_word hColon)
      exact ihCondition.append_of_reports (hBranches.cons_word hQuestion)
  | assign _ hEqual _ ihTarget ihValue =>
      exact ihTarget.append_of_reports (ihValue.cons_word hEqual)
  | @invalid t target _ ts us reports reports' _ _ _ _ _ ihTarget _ =>
      have hReported : reports' ++ [Diagnostic.Mistake.invalidTarget.atToken t] ≠ [] := by simp
      have hWhole := ihTarget.append_of_reports (.dropped hReported (t :: us))
      rwa [List.append_nil] at hWhole
  | tighter _ ih => exact ih

theorem Clause.accounts {d : Declaration} {ts : List Token} {reports : List Diagnostic}
    {damaged : Bool} (h : Clause d ts reports damaged) : Accounts (reports = []) d.marks ts := by
  cases h with
  | bare h => exact .single rfl
  | initialized h hEqual value => exact (value.accounts.cons_word hEqual).cons rfl

theorem Clauses.accounts {ds : List Declaration} {ts : List Token} {reports : List Diagnostic}
    {damaged : Bool} (h : Clauses ds ts reports damaged) :
    Accounts (reports = []) (Declaration.marksAll ds) ts := by
  induction h with
  | one h => exact h.accounts
  | @more d ds t ts us reports reports' _ _ first hComma others ih =>
      cases ds with
      | nil => cases others
      | cons d' ds => exact first.accounts.append_of_reports (ih.cons_word hComma)

theorem declaring_marks {ds : List Declaration} (h : ds ≠ []) :
    (declaring ds).marks =
      .fixed .kwVar :: (Declaration.marksAll ds ++ [.fixed .semicolon]) := by
  match ds, h with
  | [d], _ => rfl
  | _ :: _ :: _, _ => rfl

theorem Sentence.accounts {s : Stmt} {ts : List Token} {reports : List Diagnostic}
    {damaged : Bool} (h : Sentence s ts reports damaged) : Accounts (reports = []) s.marks ts := by
  cases h with
  | expression phrase hEnd => exact phrase.accounts.append_word hEnd
  | print hPrint phrase hEnd => exact (phrase.accounts.append_word hEnd).cons_word hPrint
  | declaration hVar clauses hEnd =>
      rw [declaring_marks clauses.ne_nil]
      exact (clauses.accounts.append_word hEnd).cons_word hVar

/-! ## Gaps -/

theorem append_ne_nil_of_damaged {r r' : List Diagnostic} {b b' : Bool}
    (h : b = true → r ≠ []) (h' : b' = true → r' ≠ []) : (b || b') = true → r ++ r' ≠ [] := by
  intro hDamaged hNil
  obtain ⟨hFirst, hSecond⟩ := List.append_eq_nil_iff.1 hNil
  rcases Bool.or_eq_true_iff.1 hDamaged with hb | hb
  · exact h hb hFirst
  · exact h' hb hSecond

/-- Damage is never silent. -/
theorem Phrase.reports_ne_nil {l : Level} {e : Expr} {ts : List Token} {reports : List Diagnostic}
    {damaged : Bool} (h : Phrase l e ts reports damaged) : damaged = true → reports ≠ [] := by
  induction h with
  | literal h => exact fun hDamaged => absurd hDamaged (by decide)
  | name h => exact fun hDamaged => absurd hDamaged (by decide)
  | group _ _ _ ih => exact ih
  | orphan h _ _ => exact fun _ => List.cons_ne_nil _ _
  | unary h _ ih => exact ih
  | join _ _ _ ih ih' => exact append_ne_nil_of_damaged ih ih'
  | conditional _ _ _ _ _ ih ih' ih'' =>
      exact append_ne_nil_of_damaged ih (append_ne_nil_of_damaged ih' ih'')
  | assign _ _ _ ih ih' => exact append_ne_nil_of_damaged ih ih'
  | invalid _ _ _ _ _ => exact fun _ => by simp
  | tighter _ ih => exact ih

theorem Clause.reports_ne_nil {d : Declaration} {ts : List Token} {reports : List Diagnostic}
    {damaged : Bool} (h : Clause d ts reports damaged) : damaged = true → reports ≠ [] := by
  cases h with
  | bare h => exact fun hDamaged => absurd hDamaged (by decide)
  | initialized h hEqual value => exact value.reports_ne_nil

theorem Clauses.reports_ne_nil {ds : List Declaration} {ts : List Token}
    {reports : List Diagnostic} {damaged : Bool} (h : Clauses ds ts reports damaged) :
    damaged = true → reports ≠ [] := by
  induction h with
  | one h => exact h.reports_ne_nil
  | more first _ _ ih => exact append_ne_nil_of_damaged first.reports_ne_nil ih

theorem Sentence.reports_ne_nil {s : Stmt} {ts : List Token} {reports : List Diagnostic}
    {damaged : Bool} (h : Sentence s ts reports damaged) : damaged = true → reports ≠ [] := by
  cases h with
  | expression phrase hEnd => exact phrase.reports_ne_nil
  | print hPrint phrase hEnd => exact phrase.reports_ne_nil
  | declaration hVar clauses hEnd => exact clauses.reports_ne_nil

/-- Where nothing is reported there is no gap. -/
theorem Passage.stmt?_ne_none {items : List Item} {ts : List Token} (h : Passage items ts) :
    ∀ item ∈ items, item.reports = [] → item.stmt? ≠ none := by
  refine h.forall_mem ?_ ?_ ?_
  · intro s ts reports damaged hSentence hNil
    have hWhole : damaged = false := by
      cases damaged with
      | false => rfl
      | true => exact absurd hNil (hSentence.reports_ne_nil rfl)
    simp [Item.ofStmt, hWhole]
  · intro body hInner hNil
    have hWhole : (body.any fun item => item.stmt?.isNone) = false := by
      rw [List.any_eq_false]
      intro inner hMem
      have hSilent : inner.reports = [] := List.flatMap_eq_nil_iff.1 hNil inner hMem
      simpa using hInner inner hMem hSilent
    simp [Item.ofBlock, Item.ofStmt, hWhole]
  · intro reports d hNil
    exact absurd hNil (by simp)

/-! ## Programs -/

/-- An item that is no gap shows the marks of its statement, and a gap shows none. -/
theorem accounts_ofStmt {s : Stmt} {ts : List Token} {reports : List Diagnostic} {damaged : Bool}
    (h : Accounts (reports = []) s.marks ts) (hReported : damaged = true → reports ≠ []) :
    Accounts (reports = [])
      (Stmt.marksAll ([Item.ofStmt s reports damaged].filterMap Item.stmt?)) ts := by
  cases damaged with
  | false =>
      show Accounts (reports = []) (s.marks ++ []) ts
      rwa [List.append_nil]
  | true => exact .dropped (hReported rfl) ts

theorem marksAll_cons (item : Item) (items : List Item) :
    Stmt.marksAll ((item :: items).filterMap Item.stmt?) =
      Stmt.marksAll ([item].filterMap Item.stmt?) ++
        Stmt.marksAll (items.filterMap Item.stmt?) := by
  cases h : item.stmt? with
  | none => simp [h, Stmt.marksAll]
  | some s => simp [h, Stmt.marksAll]

/-- Items account for the tokens that they were read from, exactly so if there is no report. -/
theorem Passage.accounts {items : List Item} {ts : List Token} (h : Passage items ts) :
    Accounts (items.flatMap Item.reports = [])
      (Stmt.marksAll (items.filterMap Item.stmt?)) ts := by
  induction h with
  | nil => exact .nil
  | @sentence s _ _ reports damaged items h _ ih =>
      rw [marksAll_cons]
      exact (accounts_ofStmt h.accounts h.reports_ne_nil).append_of_reports ih
  | @block b c ts us body items hOpen inner hClose _ ihInner ih =>
      rw [marksAll_cons]
      refine Accounts.append_of_reports ?_ ih
      -- A block is dropped for a gap in it, and what left the gap has been reported.
      refine accounts_ofStmt ((ihInner.append_word hClose).cons_word hOpen) fun hGap hNil => ?_
      obtain ⟨item, hItem, hNone⟩ := List.any_eq_true.1 hGap
      have hSilent : item.reports = [] := List.flatMap_eq_nil_iff.1 hNil item hItem
      exact inner.stmt?_ne_none item hItem hSilent (Option.isNone_iff_eq_none.1 hNone)
  | @broken ts us reports d items _ _ ih =>
      rw [marksAll_cons]
      have hReported : reports ++ [d] ≠ [] := by simp
      exact Accounts.append_of_reports (.dropped hReported ts) ih

/--
**Soundness.** The marks of a program that was read are fitted by a sublist of the
tokens before the end mark and, if no mistake was reported, by all of these tokens.
-/
theorem marks_parse (ts : List Token) :
    (∃ kept, kept.Sublist (beforeEnd ts) ∧
        List.Forall₂ Mark.Fits (Stmt.marksAll (parse ts).program) kept) ∧
      ((parse ts).diagnostics = [] →
        List.Forall₂ Mark.Fits (Stmt.marksAll (parse ts).program) (beforeEnd ts)) := by
  have hAccounts := (passage_parse ts).accounts
  obtain ⟨kept, hFits, hSub⟩ := List.sublistForall₂_iff.1 hAccounts.some
  exact ⟨⟨kept, hSub, hFits⟩, hAccounts.all⟩

end TinyScript.Grammar
