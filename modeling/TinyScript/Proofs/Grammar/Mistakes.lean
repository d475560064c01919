import Mathlib.Data.List.Perm.Subperm
import TinyScript.Proofs.Grammar.Derivation

/-!
# What is reported, and at which tokens

Derivations describe what is read without being stopped. Here the productions are
followed to their end in any case, and the question is what they report on the way.

Mistakes are reported by three routes. A mistake that stops a statement is reported
when the statement is given up, at the first token left, and recovery skips that token.
An operator with nothing on its left is reported as soon as it has been read. An invalid
target is reported at its equals sign, but only after the value behind it, so these
reports come late and out of order. In every case the token is one that is never read
again, which is why no token is reported twice.

* `Charge` is a mistake with the token it is reported at. `Fair` says which tokens a
  list of charges may name: each at most once, and in order but for the late ones.
* `Reading.Charges` is the postcondition of the productions for expressions and simple
  statements. Their reports are a fair list of charges against what they have read; the
  statement is damaged if and only if one of them is more than an invalid target.
* `Ledger` allows for reports at the end of the source, which come after all others.
  `Reading.Accounted` is the postcondition of statements, `Item.Deserved` says when an
  item is a gap.
-/

namespace TinyScript.Grammar

open Diagnostic (Mistake)
open Token (Kind)

/-! ## Charges -/

/-- A mistake and the token at which it is reported. -/
structure Charge where
  mistake : Mistake
  token : Token

namespace Charge

/-- The report of a mistake at its token. -/
def report (c : Charge) : Diagnostic :=
  c.mistake.atToken c.token

/-- Invalid targets are reported after the value behind the equals sign. -/
def IsLate (c : Charge) : Prop :=
  c.mistake = .invalidTarget

instance (c : Charge) : Decidable c.IsLate := by
  unfold IsLate
  infer_instance

end Charge

theorem code_eq_invalidTarget_iff (m : Mistake) : m.code = .invalidTarget ↔ m = .invalidTarget := by
  cases m <;> decide

/-- No token is charged twice, and the charges that do not come late are in order. -/
structure Fair (charges : List Charge) (ts : List Token) : Prop where
  once : (charges.map Charge.token).Subperm ts
  ordered : ((charges.filter fun c => ¬c.IsLate).map Charge.token).Sublist ts

namespace Fair

variable {charges charges' : List Charge} {ts us : List Token}

theorem nil (ts : List Token) : Fair [] ts :=
  ⟨List.nil_subperm, List.nil_sublist ts⟩

theorem single (m : Mistake) (t : Token) : Fair [⟨m, t⟩] [t] := by
  constructor
  · exact List.Subperm.refl [t]
  · exact ((List.filter_sublist).map _)

theorem append (h : Fair charges ts) (h' : Fair charges' us) :
    Fair (charges ++ charges') (ts ++ us) := by
  constructor
  · rw [List.map_append]
    exact h.once.append h'.once
  · rw [List.filter_append, List.map_append]
    exact h.ordered.append h'.ordered

theorem cons (h : Fair charges ts) (t : Token) : Fair charges (t :: ts) :=
  (nil [t]).append h

theorem eq_nil (h : Fair charges []) : charges = [] := by
  have hTokens : charges.map Charge.token = [] := List.subperm_nil.1 h.once
  exact List.map_eq_nil_iff.1 hTokens

/-- A late charge is against a token in front of all that were charged before it. -/
theorem late (h : Fair charges ts) (t : Token) :
    Fair (charges ++ [Charge.mk .invalidTarget t]) (t :: ts) := by
  constructor
  · have hSwap : ((charges ++ [Charge.mk .invalidTarget t]).map Charge.token).Perm
        (t :: charges.map Charge.token) := by
      rw [List.map_append]
      exact List.perm_append_singleton t _
    exact hSwap.subperm.trans ((List.subperm_cons t).2 h.once)
  · have hDrop : (charges ++ [Charge.mk .invalidTarget t]).filter (fun c => ¬c.IsLate) =
        charges.filter fun c => ¬c.IsLate := by
      simp [Charge.IsLate]
    rw [hDrop]
    exact h.ordered.cons t

end Fair

/-! ## Expressions and simple statements -/

/--
A reading of `ts` that reports fair charges against what it has read. It damages the
statement if and only if one of them does not come late, and what stops it is reported
at the first token left.
-/
def Reading.Charges {α : Type} (endLine : Nat) (r : Reading α) (ts : List Token) : Prop :=
  ∃ read charges, ts = read ++ r.rest ∧ r.reports = charges.map Charge.report ∧
    Fair charges read ∧ (r.damaged = true ↔ ∃ c ∈ charges, ¬c.IsLate) ∧
    ∀ d, r.outcome = .error d → ∃ m, m ≠ .invalidTarget ∧ d = mistakeAt m endLine r.rest

variable {endLine : Nat}

namespace Reading

variable {α β : Type} {ts : List Token}

theorem charges_done (a : α) (ts : List Token) : (Reading.done a ts).Charges endLine ts := by
  refine ⟨[], [], rfl, rfl, .nil [], by simp [Reading.done], ?_⟩
  intro d hd
  cases hd

theorem charges_fail {m : Mistake} (h : m ≠ .invalidTarget) (ts : List Token) :
    (Reading.fail (mistakeAt m endLine ts) ts : Reading α).Charges endLine ts := by
  refine ⟨[], [], rfl, rfl, .nil [], by simp [Reading.fail], ?_⟩
  intro d hd
  cases hd
  exact ⟨m, h, rfl⟩

theorem Charges.cons {r : Reading α} (h : r.Charges endLine ts) (t : Token) :
    r.Charges endLine (t :: ts) := by
  obtain ⟨read, charges, hSplit, hReports, hFair, hDamaged, hStop⟩ := h
  refine ⟨t :: read, charges, ?_, hReports, hFair.cons t, hDamaged, hStop⟩
  rw [hSplit]
  rfl

/-- Two readings in a row charge tokens of two parts in a row. -/
theorem Charges.bind {r : Reading α} {f : α → List Token → Reading β} (h : r.Charges endLine ts)
    (hNext : ∀ a rest, rest.length ≤ ts.length → (f a rest).Charges endLine rest) :
    (r.bind f).Charges endLine ts := by
  obtain ⟨read, charges, hSplit, hReports, hFair, hDamaged, hStop⟩ := h
  have hLength : r.rest.length ≤ ts.length := by
    rw [hSplit, List.length_append]
    omega
  unfold Reading.bind
  split
  · next a hOk =>
      obtain ⟨more, charges', hRest, hReports', hFair', hDamaged', hStop'⟩ :=
        hNext a r.rest hLength
      refine ⟨read ++ more, charges ++ charges', ?_, ?_, hFair.append hFair', ?_, hStop'⟩
      · rw [List.append_assoc]
        exact hSplit.trans (congrArg _ hRest)
      · simp [Reading.followedBy, hReports, hReports']
      · simp only [Reading.followedBy, Bool.or_eq_true, hDamaged, hDamaged', List.mem_append,
          or_and_right, exists_or]
  · next d hError =>
      refine ⟨read, charges, hSplit, ?_, hFair, ?_, ?_⟩
      · simp [Reading.followedBy, Reading.fail, hReports]
      · simpa [Reading.followedBy, Reading.fail] using hDamaged
      · intro d' hd'
        cases hd'
        exact hStop d hError

theorem Charges.map {r : Reading α} (h : r.Charges endLine ts) (f : α → β) :
    (r.map f).Charges endLine ts :=
  h.bind fun a rest _ => charges_done (f a) rest

/-- An operator with nothing on its left is charged before its operand. -/
theorem Charges.afterDamage {r : Reading α} (h : r.Charges endLine ts) (t : Token) :
    (r.afterDamage (Mistake.noLeftOperand.atToken t)).Charges endLine (t :: ts) := by
  obtain ⟨read, charges, hSplit, hReports, hFair, -, hStop⟩ := h
  refine ⟨t :: read, ⟨.noLeftOperand, t⟩ :: charges, ?_, ?_, (Fair.single _ t).append hFair, ?_,
    hStop⟩
  · rw [hSplit]
    rfl
  · simp [Reading.afterDamage, hReports, Charge.report]
  · simp [Reading.afterDamage, Charge.IsLate]

/-- An equals sign is charged after the value behind it, if its target is no variable. -/
theorem Charges.assignTo {r : Reading Expr} (h : r.Charges endLine ts) (target : Expr) (t : Token) :
    (r.bind fun value left => Grammar.assignTo target t value left).Charges endLine (t :: ts) := by
  cases hOutcome : r.outcome with
  | error d =>
      have hSame : (r.bind fun value left => Grammar.assignTo target t value left) =
          r.bind fun _ left => Reading.done target left := by
        simp only [Reading.bind, hOutcome]
      rw [hSame]
      exact (h.bind fun _ left _ => charges_done target left).cons t
  | ok value =>
      simp only [Reading.bind, hOutcome]
      obtain ⟨read, charges, hSplit, hReports, hFair, hDamaged, -⟩ := h
      have hTokens : t :: ts = (t :: read) ++ r.rest := congrArg (t :: ·) hSplit
      unfold Grammar.assignTo
      split
      · refine ⟨t :: read, charges, hTokens, ?_, hFair.cons t, ?_, fun d hd => by cases hd⟩
        · simp [Reading.followedBy, Reading.done, hReports]
        · simpa [Reading.followedBy, Reading.done] using hDamaged
      · refine ⟨t :: read, charges ++ [⟨.invalidTarget, t⟩], hTokens, ?_, hFair.late t, ?_,
          fun d hd => by cases hd⟩
        · simp [Reading.followedBy, hReports, Charge.report]
        · simp [Reading.followedBy, Reading.done, hDamaged, Charge.IsLate, or_and_right, exists_or]

end Reading

theorem charges_expect {m : Mistake} (h : m ≠ .invalidTarget) (kind : Kind) (ts : List Token) :
    (expect kind m endLine ts).Charges endLine ts := by
  cases ts with
  | nil => exact Reading.charges_fail h []
  | cons t rest =>
      by_cases hKind : t.kind = kind
      · simp only [expect, hKind, if_true]
        exact (Reading.charges_done t rest).cons t
      · simp only [expect, hKind, if_false]
        exact Reading.charges_fail h (t :: rest)

/-- What the primary level charges, if what stands inside charges fairly. -/
theorem charges_primary {ts : List Token}
    (ih : ∀ l us, us.length < ts.length → (expr endLine l us).Charges endLine us) :
    (expr endLine .primary ts).Charges endLine ts := by
  cases ts with
  | nil =>
      rw [expr_primary_nil]
      exact Reading.charges_fail (by decide) []
  | cons t rest =>
      have hRest : ∀ l, (expr endLine l rest).Charges endLine rest := by
        intro l
        exact ih l rest (Nat.lt_succ_self _)
      rw [expr_primary_cons]
      cases literal? t with
      | some v => exact (Reading.charges_done _ rest).cons t
      | none =>
          by_cases hName : t.kind = .identifier
          · simp only [hName, if_true]
            exact (Reading.charges_done _ rest).cons t
          by_cases hOpen : t.kind = .leftParen
          · simp only [hOpen, if_true]
            refine ((hRest .comma).bind fun e left _ => ?_).cons t
            exact (charges_expect (by decide) .rightParen left).map _
          simp only [hName, hOpen, if_false]
          cases Level.ofOrphan? t.kind with
          | none => exact Reading.charges_fail (by decide) (t :: rest)
          | some l =>
              refine Reading.Charges.afterDamage ?_ t
              exact (hRest l).bind fun _ left _ => Reading.charges_done Expr.missing left

/-- What the conditional level charges, if its parts charge fairly. -/
theorem charges_conditional {ts : List Token}
    (hFirst : (expr endLine .equality ts).Charges endLine ts)
    (ih : ∀ l us, us.length < ts.length → (expr endLine l us).Charges endLine us) :
    (expr endLine .conditional ts).Charges endLine ts := by
  rw [expr_conditional]
  refine hFirst.bind fun a rest hRest => ?_
  cases rest with
  | nil => exact Reading.charges_done a []
  | cons q after =>
      by_cases hQuestion : q.kind = .question
      · simp only [hQuestion, if_true]
        refine ((ih .comma after hRest).bind fun b middle hMiddle => ?_).cons q
        cases middle with
        | nil => exact Reading.charges_fail (by decide) []
        | cons c final =>
            by_cases hColon : c.kind = .colon
            · simp only [hColon, if_true]
              have hFinal : final.length < ts.length := by
                simp only [List.length_cons] at hRest hMiddle
                omega
              exact ((ih .conditional final hFinal).bind fun e left _ =>
                Reading.charges_done _ left).cons c
            · simp only [hColon, if_false]
              exact Reading.charges_fail (by decide) (c :: final)
      · simp only [hQuestion, if_false]
        exact Reading.charges_done a (q :: after)

/-- What the assignment level charges, if its parts charge fairly. -/
theorem charges_assignment {ts : List Token}
    (hFirst : (expr endLine .conditional ts).Charges endLine ts)
    (ih : ∀ l us, us.length < ts.length → (expr endLine l us).Charges endLine us) :
    (expr endLine .assignment ts).Charges endLine ts := by
  rw [expr_assignment]
  refine hFirst.bind fun target rest hRest => ?_
  cases rest with
  | nil => exact Reading.charges_done target []
  | cons t after =>
      by_cases hEqual : t.kind = .equal
      · simp only [hEqual, if_true]
        exact (ih .assignment after hRest).assignTo target t
      · simp only [hEqual, if_false]
        exact Reading.charges_done target (t :: after)

/-- **Expressions charge fairly**, whether they are read to their end or stopped. -/
theorem expr_charges_and_chain_charges :
    (∀ l ts, (expr endLine l ts).Charges endLine ts) ∧
      ∀ l left ts, (chain endLine l left ts).Charges endLine ts := by
  refine productions_induction ?_ ?_
  · intro l ts ihShorter ihTighter ihChain
    by_cases hChain : l.isChain
    · rw [expr_of_isChain hChain]
      exact (ihTighter l.tighter (Level.rank_tighter_lt hChain)).bind ihChain
    · cases l
      case assignment => exact charges_assignment (ihTighter .conditional (by decide)) ihShorter
      case conditional => exact charges_conditional (ihTighter .equality (by decide)) ihShorter
      case unary =>
        cases ts with
        | nil =>
            rw [expr_unary_nil]
            exact ihTighter .primary (by decide)
        | cons t rest =>
            rw [expr_unary_cons]
            cases UnaryOp.ofKind? t.kind with
            | none => exact ihTighter .primary (by decide)
            | some op =>
                exact ((ihShorter .unary rest (Nat.lt_succ_self _)).bind fun _ left _ =>
                  Reading.charges_done _ left).cons t
      case primary => exact charges_primary ihShorter
      all_goals exact absurd rfl hChain
  · intro l left ts ihShorter ihChain
    cases ts with
    | nil =>
        rw [chain_nil]
        exact Reading.charges_done left []
    | cons t rest =>
        rw [chain_cons]
        cases l.join? t with
        | none => exact Reading.charges_done left (t :: rest)
        | some join =>
            refine ((ihShorter l.tighter rest (Nat.lt_succ_self _)).bind
              fun right after hAfter => ?_).cons t
            exact ihChain (join left right) after (Nat.lt_succ_of_le hAfter)

theorem expr_charges (l : Level) (ts : List Token) : (expr endLine l ts).Charges endLine ts :=
  expr_charges_and_chain_charges.1 l ts

theorem charges_declarator (ts : List Token) : (declarator endLine ts).Charges endLine ts := by
  refine (charges_expect (by decide) .identifier ts).bind fun name rest _ => ?_
  unfold initializer
  split
  · exact Reading.charges_done _ []
  · split
    · exact ((expr_charges .assignment _).map _).cons _
    · exact Reading.charges_done _ _

theorem charges_declarators (ts : List Token) : (declarators endLine ts).Charges endLine ts := by
  obtain ⟨n, hLength⟩ : ∃ n, ts.length = n := ⟨_, rfl⟩
  induction n using Nat.strongRecOn generalizing ts with
  | ind n ih =>
      rw [declarators_eq]
      refine (charges_declarator ts).bind fun d rest hRest => ?_
      cases rest with
      | nil => exact Reading.charges_done [d] []
      | cons t after =>
          by_cases hComma : t.kind = .comma
          · simp only [hComma, if_true]
            exact ((ih _ (hLength ▸ hRest) after rfl).bind fun ds left _ =>
              Reading.charges_done (d :: ds) left).cons t
          · simp only [hComma, if_false]
            exact Reading.charges_done [d] (t :: after)

/-- What comes before the semicolon of a statement decides what is charged. -/
theorem charges_terminated {α : Type} {r : Reading α} {ts : List Token} {m : Mistake}
    (h : r.Charges endLine ts) (hMistake : m ≠ .invalidTarget) (s : α → Stmt) :
    (r.bind fun a rest => terminated (s a) m endLine rest).Charges endLine ts :=
  h.bind fun _ rest _ => (charges_expect hMistake .semicolon rest).map _

/-! ## Ledgers -/

/--
The reports on `read`, with `rest` left: fair charges against `read`, and after them
reports at the end of the source, of which there are none while a token is left.
-/
def Ledger (endLine : Nat) (read rest : List Token) (reports : List Diagnostic) : Prop :=
  ∃ charges ends, reports = charges.map Charge.report ++ ends ∧ Fair charges read ∧
    (∀ d ∈ ends, ∃ m : Mistake, m ≠ .invalidTarget ∧ d = m.atEnd endLine) ∧
    (ends ≠ [] → rest = [])

namespace Ledger

variable {read rest more rest' : List Token} {reports reports' : List Diagnostic}

theorem of_fair {charges : List Charge} (h : Fair charges read) (rest : List Token) :
    Ledger endLine read rest (charges.map Charge.report) := by
  refine ⟨charges, [], (List.append_nil _).symm, h, ?_, fun hSome => absurd rfl hSome⟩
  intro d hd
  cases hd

theorem nil (read rest : List Token) : Ledger endLine read rest [] :=
  of_fair (.nil read) rest

/-- Where reports at the end have been made, nothing is left to be charged. -/
theorem append (h : Ledger endLine read (more ++ rest) reports)
    (h' : Ledger endLine more rest reports') :
    Ledger endLine (read ++ more) rest (reports ++ reports') := by
  obtain ⟨charges, ends, rfl, hFair, hEnds, hLast⟩ := h
  obtain ⟨charges', ends', rfl, hFair', hEnds', hLast'⟩ := h'
  by_cases hNone : ends = []
  · refine ⟨charges ++ charges', ends', ?_, hFair.append hFair', hEnds', hLast'⟩
    simp [hNone]
  · obtain ⟨rfl, hRest⟩ := List.append_eq_nil_iff.1 (hLast hNone)
    obtain rfl := hFair'.eq_nil
    refine ⟨charges, ends ++ ends', ?_, ?_, ?_, fun _ => hRest⟩
    · simp
    · rwa [List.append_nil]
    · intro d hd
      rcases List.mem_append.1 hd with hd | hd
      · exact hEnds d hd
      · exact hEnds' d hd

/-- What stops a statement is charged to the first token left, which recovery skips. -/
theorem skip {m : Mistake} (h : m ≠ .invalidTarget) (rest : List Token) :
    ∃ skipped, rest = skipped ++ synchronize rest ∧
      Ledger endLine skipped (synchronize rest) [mistakeAt m endLine rest] := by
  cases rest with
  | nil =>
      refine ⟨[], rfl, [], [m.atEnd endLine], rfl, .nil [], ?_, fun _ => rfl⟩
      intro d hd
      exact ⟨m, h, List.mem_singleton.1 hd⟩
  | cons t after =>
      obtain ⟨skipped, hSkipped⟩ : synchronize (t :: after) <:+ after := by
        rcases List.suffix_cons_iff.1 (synchronize_suffix (t :: after)) with hWhole | hSuffix
        · have hLength := length_synchronize_cons t after
          rw [hWhole, List.length_cons] at hLength
          omega
        · exact hSuffix
      refine ⟨t :: skipped, congrArg (t :: ·) hSkipped.symm, ?_⟩
      exact of_fair ((Fair.single m t).append (.nil skipped)) _

end Ledger

/-! ## Statements and items -/

/-- A reading of `ts` whose reports make up a ledger; it damages the statement if and only if
one of them is more than an invalid target, and what stops it is more than that. -/
def Reading.Accounted {α : Type} (endLine : Nat) (r : Reading α) (ts : List Token) : Prop :=
  ∃ read, ts = read ++ r.rest ∧ Ledger endLine read r.rest r.reports ∧
    (r.damaged = true ↔ ∃ d ∈ r.reports, d.code ≠ .invalidTarget) ∧
    ∀ d, r.outcome = .error d → ∃ m, m ≠ .invalidTarget ∧ d = mistakeAt m endLine r.rest

theorem Reading.Charges.accounted {α : Type} {r : Reading α} {ts : List Token}
    (h : r.Charges endLine ts) : r.Accounted endLine ts := by
  obtain ⟨read, charges, hSplit, hReports, hFair, hDamaged, hStop⟩ := h
  refine ⟨read, hSplit, hReports ▸ .of_fair hFair r.rest, ?_, hStop⟩
  simp [hDamaged, hReports, Charge.IsLate, Charge.report, Mistake.atToken,
    code_eq_invalidTarget_iff]

/-- An item is a gap if and only if more than an invalid target was reported in it. -/
def Item.Deserved (item : Item) : Prop :=
  item.stmt? = none ↔ ∃ d ∈ item.reports, d.code ≠ .invalidTarget

theorem code_mistakeAt (m : Mistake) (ts : List Token) : (mistakeAt m endLine ts).code = m.code := by
  cases ts <;> rfl

/-- Items without gaps are statements. -/
theorem map_some_filterMap_stmt? {items : List Item} (h : ∀ item ∈ items, item.stmt? ≠ none) :
    (items.filterMap Item.stmt?).map some = items.map Item.stmt? := by
  induction items with
  | nil => rfl
  | cons item items ih =>
      obtain ⟨hFirst, hOthers⟩ := List.forall_mem_cons.1 h
      obtain ⟨s, hs⟩ := Option.ne_none_iff_exists'.1 hFirst
      simp only [List.filterMap_cons, List.map_cons, hs, ih hOthers]

/-- What becomes of a statement keeps the ledger, whether it was kept, dropped or given up. -/
theorem exists_ledger_settle {r : Reading Stmt} {ts : List Token} (h : r.Accounted endLine ts) :
    (settle r).1.Deserved ∧ ∃ read, ts = read ++ (settle r).2 ∧
      Ledger endLine read (settle r).2 (settle r).1.reports := by
  obtain ⟨read, hSplit, hLedger, hDamaged, hStop⟩ := h
  unfold settle
  split
  · refine ⟨?_, read, hSplit, hLedger⟩
    rw [Item.Deserved, ← hDamaged]
    cases r.damaged <;> simp
  · next d hError =>
      obtain ⟨m, hMistake, rfl⟩ := hStop d hError
      constructor
      · refine iff_of_true rfl ⟨mistakeAt m endLine r.rest, by simp, ?_⟩
        rwa [code_mistakeAt, ne_eq, code_eq_invalidTarget_iff]
      · obtain ⟨skipped, hSkip, hSkipped⟩ := @Ledger.skip endLine m hMistake r.rest
        refine ⟨read ++ skipped, ?_, Ledger.append (hSkip ▸ hLedger) hSkipped⟩
        rw [List.append_assoc, ← hSkip]
        exact hSplit

/-- A block is damaged by the gaps in it, and they are deserved. -/
theorem accounted_closeBlock {body : List Item} {read ts : List Token}
    (hBody : ∀ item ∈ body, item.Deserved)
    (hLedger : Ledger endLine read ts (body.flatMap Item.reports)) :
    (closeBlock endLine body ts).Accounted endLine (read ++ ts) := by
  have hDamaged : (closeBlock endLine body ts).damaged = true ↔
      ∃ d ∈ body.flatMap Item.reports, d.code ≠ .invalidTarget := by
    simp only [closeBlock, List.any_eq_true, Option.isNone_iff_eq_none, List.mem_flatMap]
    constructor
    · rintro ⟨item, hItem, hGap⟩
      obtain ⟨d, hd, hCode⟩ := (hBody item hItem).1 hGap
      exact ⟨d, ⟨item, hItem, hd⟩, hCode⟩
    · rintro ⟨d, ⟨item, hItem, hd⟩, hCode⟩
      exact ⟨item, hItem, (hBody item hItem).2 ⟨d, hd, hCode⟩⟩
  have hOpen : (expect .rightBrace .noBraceAfterBlock endLine ts).Charges endLine ts :=
    charges_expect (by decide) .rightBrace ts
  obtain ⟨brace, -, hSplit, -, -, -, hStop⟩ := hOpen.map fun _ =>
    Stmt.block (body.filterMap Item.stmt?)
  refine ⟨read ++ brace, ?_, ?_, hDamaged, hStop⟩
  · rw [List.append_assoc]
    exact congrArg (read ++ ·) hSplit
  · have hBrace := hLedger
    rw [hSplit] at hBrace
    have hWhole := hBrace.append (.nil brace _)
    rwa [List.append_nil] at hWhole

/--
**Statements and items keep the ledger.** The induction is on the number of tokens: a
block calls the loop on fewer tokens, and each turn of the loop leaves fewer tokens than
it was given.
-/
theorem statement_accounted_and_items_accounted (ts : List Token) :
    (statement endLine ts).Accounted endLine ts ∧
      ∀ nested, (∀ item ∈ (items endLine nested ts).1, item.Deserved) ∧
        ∃ read, ts = read ++ (items endLine nested ts).2 ∧
          Ledger endLine read (items endLine nested ts).2
            ((items endLine nested ts).1.flatMap Item.reports) := by
  obtain ⟨n, hLength⟩ : ∃ n, ts.length = n := ⟨_, rfl⟩
  induction n using Nat.strongRecOn generalizing ts with
  | ind n ih =>
      have hStatement : (statement endLine ts).Accounted endLine ts := by
        cases ts with
        | nil =>
            rw [statement_nil]
            exact (charges_terminated (expr_charges .comma []) (by decide) _).accounted
        | cons t rest =>
            rw [statement_cons]
            split
            · exact ((charges_terminated (charges_declarators rest) (by decide) _).cons t).accounted
            split
            · exact ((charges_terminated (expr_charges .comma rest) (by decide) _).cons t).accounted
            split
            · obtain ⟨hBody, inner, hInner, hLedger⟩ :=
                (ih rest.length (hLength ▸ Nat.lt_succ_self _) rest rfl).2 true
              obtain ⟨read, hSplit, hRead, hRest⟩ := accounted_closeBlock hBody hLedger
              rw [← hInner] at hSplit
              exact ⟨t :: read, congrArg (t :: ·) hSplit, .append (.nil [t] _) hRead, hRest⟩
            · exact (charges_terminated (expr_charges .comma (t :: rest)) (by decide) _).accounted
      refine ⟨hStatement, fun nested => ?_⟩
      cases ts with
      | nil =>
          rw [items_nil]
          refine ⟨?_, [], rfl, .nil [] []⟩
          intro item hItem
          cases hItem
      | cons t rest =>
          rw [items_cons]
          split
          · refine ⟨?_, [], rfl, .nil [] _⟩
            intro item hItem
            cases hItem
          · obtain ⟨hFirst, read, hSplit, hLedger⟩ := exists_ledger_settle hStatement
            have hSettle := @length_settle_statement endLine t rest
            rw [hLength] at hSettle
            obtain ⟨hMore, read', hSplit', hLedger'⟩ := (ih _ hSettle _ rfl).2 nested
            refine ⟨List.forall_mem_cons.2 ⟨hFirst, hMore⟩, read ++ read', ?_, ?_⟩
            · rw [List.append_assoc, ← hSplit']
              exact hSplit
            · rw [List.flatMap_cons]
              exact Ledger.append (hSplit' ▸ hLedger) hLedger'

/-! ## Programs -/

/--
**A statement is dropped exactly if it deserves it.** Whatever tokens are left when a
statement is begun, it leaves a gap if and only if a mistake other than an invalid target
is reported before it is settled, at whatever depth inside it. A program is what is left
of its items without the gaps, so where only invalid targets are reported, no statement
is missing from it.
-/
theorem stmt?_eq_none_iff_reported (ts : List Token) :
    (∀ (endLine : Nat) (us : List Token), (settle (statement endLine us)).1.stmt? = none ↔
      ∃ d ∈ (settle (statement endLine us)).1.reports, d.code ≠ .invalidTarget) ∧
    ∃ read : List Item, (items (endLineOf ts) false (beforeEnd ts)).1 = read ∧
      (parse ts).program = read.filterMap Item.stmt? ∧
      (parse ts).diagnostics = read.flatMap Item.reports ∧
      (∀ item ∈ read, item.stmt? = none ↔ ∃ d ∈ item.reports, d.code ≠ .invalidTarget) ∧
      ((∀ d ∈ (parse ts).diagnostics, d.code = .invalidTarget) →
        (parse ts).program.map some = read.map Item.stmt?) := by
  have hItems : ∀ item ∈ (items (endLineOf ts) false (beforeEnd ts)).1, item.Deserved :=
    ((statement_accounted_and_items_accounted (beforeEnd ts)).2 false).1
  constructor
  · intro endLine us
    exact (exists_ledger_settle (statement_accounted_and_items_accounted us).1).1
  · refine ⟨_, rfl, rfl, rfl, hItems, ?_⟩
    intro hOnly
    refine map_some_filterMap_stmt? fun item hItem hGap => ?_
    obtain ⟨d, hd, hCode⟩ := (hItems item hItem).1 hGap
    exact hCode (hOnly d (List.mem_flatMap.2 ⟨item, hItem, hd⟩))

/-- The line and the text of the token that a report is about, if it is about one. -/
def spot? (d : Diagnostic) : Option (Nat × String) :=
  match d.place with
  | .atLexeme lexeme => some (d.line, lexeme)
  | _ => none

/-- The line and the text of a token. -/
def spot (t : Token) : Nat × String :=
  (t.line, t.lexeme)

/-- Charges name the spots of their tokens, and reports at the end name none. -/
theorem filterMap_spot?_reports {charges : List Charge} {ends : List Diagnostic}
    (h : ∀ d ∈ ends, d.place = .atEnd) :
    (charges.map Charge.report ++ ends).filterMap spot? =
      (charges.map Charge.token).map spot := by
  have hCharges : (charges.map Charge.report).filterMap spot? =
      (charges.map Charge.token).map spot := by
    rw [List.filterMap_map, List.map_map, ← List.filterMap_eq_map]
    rfl
  have hEnds : ends.filterMap spot? = [] := by
    rw [List.filterMap_eq_nil_iff]
    intro d hd
    simp [spot?, h d hd]
  rw [List.filterMap_append, hCharges, hEnds, List.append_nil]

/-- Leaving out the reports of invalid targets leaves out the late charges. -/
theorem filter_reports (charges : List Charge) :
    (charges.map Charge.report).filter (fun d => d.code ≠ .invalidTarget) =
      (charges.filter fun c => ¬c.IsLate).map Charge.report := by
  have hLate : ∀ c ∈ charges, decide (c.report.code ≠ .invalidTarget) = decide ¬c.IsLate := by
    intro c _
    exact decide_eq_decide.2 (not_congr (code_eq_invalidTarget_iff c.mistake))
  rw [List.filter_map]
  exact congrArg (List.map Charge.report) (List.filter_congr hLate)

/--
**No token is blamed twice, and mistakes are reported in order.** The reports about
tokens, as lines and texts, are drawn from the tokens before the end mark, each of which
is used at most once; without the invalid targets they are even in the order of these
tokens. The reports about the end of the source come after all others and are on the line
of the end mark.
-/
theorem filterMap_spot?_parse (ts : List Token) :
    (((parse ts).diagnostics.filter fun d => d.code ≠ .invalidTarget).filterMap spot?).Sublist
        ((beforeEnd ts).map spot) ∧
      ((parse ts).diagnostics.filterMap spot?).Subperm ((beforeEnd ts).map spot) ∧
      ∃ inside ends, (parse ts).diagnostics = inside ++ ends ∧
        (∀ d ∈ inside, (spot? d).isSome) ∧
        ∀ d ∈ ends, d.place = .atEnd ∧ d.line = endLineOf ts := by
  obtain ⟨read, hSplit, charges, ends, hReports, hFair, hEnds, -⟩ :=
    ((@statement_accounted_and_items_accounted (endLineOf ts) (beforeEnd ts)).2 false).2
  have hParsed : (parse ts).diagnostics = charges.map Charge.report ++ ends := hReports
  have hRead : read.Sublist (beforeEnd ts) := by
    rw [hSplit]
    exact List.sublist_append_left read _
  have hAtEnd : ∀ d ∈ ends, d.place = .atEnd ∧ d.line = endLineOf ts := by
    intro d hd
    obtain ⟨m, -, rfl⟩ := hEnds d hd
    exact ⟨rfl, rfl⟩
  rw [hParsed]
  refine ⟨?_, ?_, charges.map Charge.report, ends, rfl, ?_, hAtEnd⟩
  · rw [List.filter_append, filter_reports, filterMap_spot?_reports]
    · exact (hFair.ordered.trans hRead).map spot
    · intro d hd
      exact (hAtEnd d (List.mem_of_mem_filter hd)).1
  · rw [filterMap_spot?_reports fun d hd => (hAtEnd d hd).1]
    obtain ⟨tokens, hPerm, hSub⟩ := hFair.once.trans hRead.subperm
    exact ⟨tokens.map spot, hPerm.map spot, hSub.map spot⟩
  · intro d hd
    obtain ⟨c, -, rfl⟩ := List.mem_map.1 hd
    rfl

end TinyScript.Grammar
