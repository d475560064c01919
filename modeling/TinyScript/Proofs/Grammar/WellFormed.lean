import TinyScript.Proofs.Grammar.Derivation
import TinyScript.Proofs.Machine.Faults

/-!
# Whatever is read can be run

The statements of a program that was read are formed by the rules of the grammar, also
if mistakes were reported. A placeholder marks its statement as damaged, and the mark is
never lost on the way out: not by the operators around it, not by a discarded operand,
not by a block. So a derivation that is not damaged derives a tree of its level, and
only such trees are kept.

A well-formed tree has no placeholder, and evaluating a placeholder is the only way to
stop for a malformed expression. So a run of what was read never stops for one, from
whatever state it starts.

## Main results

* `Phrase.admits`, `Sentence.wellFormed`, `Passage.wellFormed`: what is derived, and not
  damaged, is well formed.
* `Stmt.WellFormed.cause_ne_malformed`: what well-formed statements do not blame.
-/

namespace TinyScript.Grammar

open Token (Kind)

/-! ## Derived trees -/

/-- What a level reads without damage is an expression of the level. -/
theorem Phrase.admits {l : Level} {e : Expr} {ts : List Token} {reports : List Diagnostic}
    {damaged : Bool} (h : Phrase l e ts reports damaged) : damaged = false → l.Admits e := by
  induction h with
  | literal h => exact fun _ => trivial
  | name h => exact fun _ => h
  | group _ _ _ ih => exact ih
  | orphan h _ _ =>
      intro hWhole
      cases hWhole
  | unary h _ ih => exact fun hWhole => ⟨Nat.le_refl _, h, ih hWhole⟩
  | join hJoin _ _ ihLeft ihRight =>
      intro hWhole
      obtain ⟨hLeft, hRight⟩ := Bool.or_eq_false_iff.1 hWhole
      rcases Level.join?_eq_some_iff.1 hJoin with ⟨rfl, _, rfl⟩ | ⟨op, hKind, rfl, rfl⟩
      · exact ⟨Nat.le_refl _, ihLeft hLeft, ihRight hRight⟩
      · exact ⟨Nat.le_refl _, hKind, ihLeft hLeft, ihRight hRight⟩
  | conditional _ _ _ _ _ ihCondition ihThen ihElse =>
      intro hWhole
      obtain ⟨hCondition, hBranches⟩ := Bool.or_eq_false_iff.1 hWhole
      obtain ⟨hThen, hElse⟩ := Bool.or_eq_false_iff.1 hBranches
      exact ⟨Nat.le_refl _, ihCondition hCondition, ihThen hThen, ihElse hElse⟩
  | assign _ _ _ ihTarget ihValue =>
      intro hWhole
      obtain ⟨hTarget, hValue⟩ := Bool.or_eq_false_iff.1 hWhole
      -- The target is a variable, so what admits it is that its token is a name.
      exact ⟨Nat.le_refl _, ihTarget hTarget, ihValue hValue⟩
  | invalid _ _ _ ihTarget _ =>
      intro hWhole
      have hTarget := ihTarget (Bool.or_eq_false_iff.1 hWhole).1
      exact hTarget.loosen (by decide)
  | @tighter l _ _ _ _ _ ih => exact fun hWhole => (ih hWhole).loosen l.rank_tighter_le

theorem Clause.wellFormed {d : Declaration} {ts : List Token} {reports : List Diagnostic}
    {damaged : Bool} (h : Clause d ts reports damaged) (hWhole : damaged = false) :
    d.WellFormed := by
  cases h with
  | bare h => exact ⟨h, fun e he => by cases he⟩
  | initialized h hEqual value =>
      refine ⟨h, fun e he => ?_⟩
      cases he
      exact value.admits hWhole

theorem Clauses.wellFormed {ds : List Declaration} {ts : List Token} {reports : List Diagnostic}
    {damaged : Bool} (h : Clauses ds ts reports damaged) :
    damaged = false → ∀ d ∈ ds, d.WellFormed := by
  induction h with
  | one h =>
      intro hWhole d hd
      rw [List.mem_singleton.1 hd]
      exact h.wellFormed hWhole
  | more first _ _ ih =>
      intro hWhole d hd
      obtain ⟨hFirst, hOthers⟩ := Bool.or_eq_false_iff.1 hWhole
      rcases List.mem_cons.1 hd with rfl | hd
      · exact first.wellFormed hFirst
      · exact ih hOthers d hd

/-- One name is declared by itself and several are declared together, so a list of
declarations that stands in a tree has at least two members. -/
theorem wellFormed_declaring {ds : List Declaration} (hSome : ds ≠ [])
    (h : ∀ d ∈ ds, d.WellFormed) : (declaring ds).WellFormed := by
  match ds, hSome with
  | [d], _ => exact h d (List.mem_singleton.2 rfl)
  | _ :: _ :: rest, _ =>
      refine ⟨?_, h⟩
      rw [List.length_cons, List.length_cons]
      omega

theorem Sentence.wellFormed {s : Stmt} {ts : List Token} {reports : List Diagnostic}
    {damaged : Bool} (h : Sentence s ts reports damaged) (hWhole : damaged = false) :
    s.WellFormed := by
  cases h with
  | expression phrase hEnd => exact phrase.admits hWhole
  | print hPrint phrase hEnd => exact phrase.admits hWhole
  | declaration hVar clauses hEnd =>
      exact wellFormed_declaring clauses.ne_nil (clauses.wellFormed hWhole)

/-- The statements that are kept are well formed, whatever stands between them. -/
theorem Passage.wellFormed {items : List Item} {ts : List Token} (h : Passage items ts) :
    ∀ item ∈ items, ∀ s ∈ item.stmt?, s.WellFormed := by
  refine h.forall_mem ?_ ?_ ?_
  · intro s ts reports damaged hSentence s' hs'
    cases damaged with
    | true => cases hs'
    | false =>
        cases hs'
        exact hSentence.wellFormed rfl
  · intro body hInner s' hs'
    have hBody : Stmt.WellFormedAll (body.filterMap Item.stmt?) := by
      refine Stmt.wellFormedAll_iff.2 fun s hs => ?_
      obtain ⟨inner, hMem, hKept⟩ := List.mem_filterMap.1 hs
      exact hInner inner hMem s hKept
    simp only [Item.ofBlock, Item.ofStmt] at hs'
    split at hs' <;> cases hs'
    exact hBody
  · intro reports d s' hs'
    cases hs'

end TinyScript.Grammar

/-! ## Faults of well-formed trees -/

namespace TinyScript

open Grammar

theorem UnaryOp.malformed_notMem_causes (op : UnaryOp) : Cause.malformed ∉ op.causes := by
  cases op <;> decide

theorem BinaryOp.malformed_notMem_causes (op : BinaryOp) : Cause.malformed ∉ op.causes := by
  cases op <;> decide

/-- An expression of the grammar blames no malformed expression. -/
theorem Grammar.Level.Admits.cause_ne_malformed {l : Level} {e : Expr} {f : Fault}
    (h : l.Admits e) (hBlames : e.Blames f) : f.cause ≠ .malformed := by
  induction e generalizing l with
  | literal v => cases hBlames
  | group inner ih => exact ih h hBlames
  | unary op operator operand ih =>
      rcases hBlames with hBlames | ⟨hCause, -⟩
      · exact ih h.2.2 hBlames
      · exact ne_of_mem_of_not_mem hCause op.malformed_notMem_causes
  | binary op operator left right ihLeft ihRight =>
      obtain ⟨-, -, hLeft, hRight⟩ := h
      rcases hBlames with hBlames | hBlames | ⟨hCause, -⟩
      · exact ihLeft hLeft hBlames
      · exact ihRight hRight hBlames
      · exact ne_of_mem_of_not_mem hCause op.malformed_notMem_causes
  | conditional condition thenBranch elseBranch ihCondition ihThen ihElse =>
      obtain ⟨-, hCondition, hThen, hElse⟩ := h
      rcases hBlames with hBlames | hBlames | hBlames
      · exact ihCondition hCondition hBlames
      · exact ihThen hThen hBlames
      · exact ihElse hElse hBlames
  | comma left right ihLeft ihRight =>
      obtain ⟨-, hLeft, hRight⟩ := h
      rcases hBlames with hBlames | hBlames
      · exact ihLeft hLeft hBlames
      · exact ihRight hRight hBlames
  | «variable» name =>
      rcases hBlames with rfl | rfl
      · exact fun hCause => by cases hCause
      · exact fun hCause => by cases hCause
  | assign name value ih =>
      rcases hBlames with hBlames | rfl
      · exact ih h.2.2 hBlames
      · exact fun hCause => by cases hCause
  | missing => cases h

theorem Declaration.WellFormed.cause_ne_malformed {d : Declaration} {f : Fault} (h : d.WellFormed)
    (hBlames : d.Blames f) : f.cause ≠ .malformed := by
  obtain ⟨e, he, hBlames⟩ := hBlames
  exact (h.2 e he).cause_ne_malformed hBlames

mutual

/-- A well-formed statement blames no malformed expression. -/
theorem Stmt.WellFormed.cause_ne_malformed {f : Fault} : ∀ {s : Stmt}, s.WellFormed →
    s.Blames f → f.cause ≠ .malformed
  | .expression _, h, hBlames => Level.Admits.cause_ne_malformed h hBlames
  | .print _, h, hBlames => Level.Admits.cause_ne_malformed h hBlames
  | .declare _, h, hBlames => Declaration.WellFormed.cause_ne_malformed h hBlames
  | .declareAll _, h, ⟨d, hd, hBlames⟩ => (h.2 d hd).cause_ne_malformed hBlames
  | .block _, h, hBlames => Stmt.WellFormedAll.cause_ne_malformed h hBlames

/-- Well-formed statements blame no malformed expression. -/
theorem Stmt.WellFormedAll.cause_ne_malformed {f : Fault} : ∀ {ss : List Stmt},
    Stmt.WellFormedAll ss → Stmt.BlamesAny ss f → f.cause ≠ .malformed
  | [], _, hBlames => hBlames.elim
  | _ :: _, h, .inl hBlames => Stmt.WellFormed.cause_ne_malformed h.1 hBlames
  | _ :: _, h, .inr hBlames => Stmt.WellFormedAll.cause_ne_malformed h.2 hBlames

end

/-! ## Programs -/

namespace Grammar

theorem wellFormed_program (ts : List Token) : ∀ s ∈ (parse ts).program, s.WellFormed := by
  intro s hs
  obtain ⟨item, hItem, hKept⟩ := List.mem_filterMap.1 hs
  exact (passage_parse ts).wellFormed item hItem s hKept

/--
**What is read is well formed and can be run.** Every statement of the program is formed
by the rules of the grammar, at every depth. No run stops for a malformed expression:
not of one of the statements, not of all of them in order, and not of the whole program
entered at a prompt, which is what is reported to a sink there.
-/
theorem parse_wellFormed (ts : List Token) :
    (∀ s ∈ (parse ts).program, s.WellFormed) ∧
      ∀ m : Machine,
        (∀ s ∈ (parse ts).program, (m.execute s).StopsAt fun f => f.cause ≠ .malformed) ∧
        ((m.executeAll (parse ts).program).StopsAt fun f => f.cause ≠ .malformed) ∧
        ((m.runLine (parse ts).program).StopsAt fun f => f.cause ≠ .malformed) ∧
        ∀ {σ : Type} [Sink σ] (sink : σ),
          m.interpret (parse ts).program sink =
              Machine.conclude (m.executeAll (parse ts).program) sink ∧
            m.interpretLine (parse ts).program sink =
              Machine.conclude (m.runLine (parse ts).program) sink := by
  have hForm := wellFormed_program ts
  have hBlames : ∀ f, Stmt.BlamesAny (parse ts).program f → f.cause ≠ .malformed :=
    fun f => (Stmt.wellFormedAll_iff.2 hForm).cause_ne_malformed
  refine ⟨hForm, fun m => ⟨?_, ?_, ?_, fun sink => ⟨rfl, m.interpretLine_eq _ sink⟩⟩⟩
  · intro s hs
    exact (m.execute_stopsAt s).imp fun f => (hForm s hs).cause_ne_malformed
  · exact (m.executeAll_stopsAt _).imp hBlames
  · exact (m.runLine_stopsAt _).imp hBlames

end Grammar

end TinyScript
