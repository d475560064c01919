import TinyScript.Proofs.Machine.Blame
import TinyScript.Proofs.Session.Reading

/-!
# Reports about runs point into the source

A run that fails is reported with the line and the text of one token. That token has
come a long way: from the source into a tree, past everything that was dropped for a
mistake, and out of the run again. `Source.Pinned` says that it is a token of the source
all the same, and one that suits what is said about the run.

What carries a token through is its mark: a tree of the grammar blames only tokens that
its marks store (`Stmt.WellFormedAll.within_marks`), and the marks of what was read are
fitted by tokens of the source, mistakes or not (`Passage.accounts`).

## Main results

* `Source.pinned_report`: faults of the program of a source.
* `Session.reported_run`: runs of the program, in a session or on their own.
-/

namespace TinyScript

open Grammar

/-! ## Tokens of a source -/

namespace Grammar

/-- Every mark of a list is fitted by one of the tokens that fit the list. -/
theorem exists_fits_of_mem {ms : List Mark} {ts : List Token}
    (h : List.SublistForall₂ Mark.Fits ms ts) {m : Mark} (hm : m ∈ ms) : ∃ t ∈ ts, m.Fits t := by
  induction h with
  | nil => cases hm
  | cons hFits _ ih =>
      rcases List.mem_cons.1 hm with rfl | hMem
      · exact ⟨_, List.mem_cons_self, hFits⟩
      · obtain ⟨t, ht, hFits'⟩ := ih hMem
        exact ⟨t, List.mem_cons_of_mem _ ht, hFits'⟩
  | cons_right _ ih =>
      obtain ⟨t, ht, hFits⟩ := ih hm
      exact ⟨t, List.mem_cons_of_mem _ ht, hFits⟩

/-- A token that is stored in what was read is one of the tokens that it was read from. -/
theorem mem_beforeEnd_of_stored {ts : List Token} {t : Token}
    (h : .stored t ∈ Stmt.marksAll (parse ts).program) : t ∈ beforeEnd ts := by
  obtain ⟨t', hMem, hFits⟩ := exists_fits_of_mem (passage_parse ts).accounts.some h
  obtain rfl : t' = t := hFits
  exact hMem

end Grammar

namespace Source

/-- Lines are counted from one. -/
theorem line_pos_of_mem_filterMap {segs : List Segment} {t : Token}
    (h : t ∈ (place 1 segs).1.filterMap Placed.token?) : 0 < t.line := by
  obtain ⟨⟨s, line⟩, hPlaced, hToken⟩ := List.mem_filterMap.1 h
  have hLine : 1 ≤ line := le_line_of_mem_place hPlaced
  cases s with
  | token kind lexeme payload =>
      cases hToken
      exact hLine
  | _ => cases hToken

/-! ## Reports -/

/--
Whether a report points into a source: some token of the source, which is not its end mark
and stands on a line of it, has the line and the text of the report. What is said is said
about some cause, and whatever cause it is said about suits the token. A symbol is
written as it is spelled.
-/
def Pinned (source : String) (r : RuntimeReport) : Prop :=
  ∃ t ∈ (lex source).tokens, t.kind ≠ .endOfFile ∧ 0 < t.line ∧
    r.line = t.line ∧ r.lexeme = t.lexeme ∧ (t.kind.isSymbol → t.lexeme = t.kind.spelling) ∧
    (∃ c : Cause, r.message = c.message) ∧ ∀ c : Cause, r.message = c.message → c.Suits t

/-- The faults of the program of a source point into the source. -/
theorem pinned_report {source : String} {f : Fault} (h : Stmt.BlamesAny (program source) f) :
    Pinned source f.report := by
  have hForm : Stmt.WellFormedAll (program source) :=
    Stmt.wellFormedAll_iff.2 (wellFormed_program _)
  obtain ⟨hSuits, hStored⟩ := hForm.within_marks h
  have hBefore : f.token ∈ beforeEnd (lex source).tokens := mem_beforeEnd_of_stored hStored
  have hEnd : f.token.kind ≠ .endOfFile := by
    simpa using List.mem_takeWhile_imp hBefore
  have hMem : f.token ∈ (lex source).tokens := List.takeWhile_subset _ hBefore
  have hPlaced := mem_filterMap_of_mem_lex hMem hEnd
  have hLine : 0 < f.token.line := line_pos_of_mem_filterMap hPlaced
  have hSymbol : f.token.kind.isSymbol → f.token.lexeme = f.token.kind.spelling := fun hSymbol =>
    String.toList_inj.1 ((lexeme_of_mem_filterMap hPlaced).eq_spelling_of_isSymbol hSymbol)
  refine ⟨f.token, hMem, hEnd, hLine, rfl, rfl, hSymbol, ⟨f.cause, rfl⟩, ?_⟩
  intro c hMessage
  rw [← Cause.message_inj hMessage]
  exact hSuits

end Source

namespace Session

open Source (Pinned program)

variable {σ : Type} [Sink σ] {source : String}

/-- What a sink is told about a run: one report that points into the source if the run has
failed, and nothing otherwise. -/
def Reported (source : String) (failed : Prop) (before after : σ) : Prop :=
  ¬failed ∧ after = before ∨
    failed ∧ ∃ r, Pinned source r ∧ after = Sink.reportRuntime before r

theorem reported_conclude {r : Run Machine Unit} (h : r.StopsAt (Stmt.BlamesAny (program source)))
    (sink : σ) :
    Reported source ((Machine.conclude r sink).1 = .failed) sink (Machine.conclude r sink).2.2 := by
  obtain ⟨result, m⟩ := r
  cases result with
  | ok _ => exact .inl ⟨by simp [Machine.conclude], rfl⟩
  | error f => exact .inr ⟨rfl, f.report, Source.pinned_report (h f rfl), rfl⟩

theorem reported_ended {r : Run Machine Unit} (h : r.StopsAt (Stmt.BlamesAny (program source)))
    (sink : σ) : Reported source ((ended r sink).1 = .runtimeError) sink (ended r sink).2.sink := by
  obtain ⟨result, m⟩ := r
  cases result with
  | ok _ => exact .inl ⟨by simp [ended], rfl⟩
  | error f => exact .inr ⟨rfl, f.report, Source.pinned_report (h f rfl), rfl⟩

/-- Whether the program is run or not, what comes of it is reported. -/
theorem reported_settled {r : Run Machine Unit} (h : r.StopsAt (Stmt.BlamesAny (program source)))
    (s : Session σ) :
    Reported source ((s.settled source r).1 = .runtimeError) (s.told source)
      (s.settled source r).2.sink := by
  unfold settled
  split
  · exact .inl ⟨by simp, rfl⟩
  · exact reported_ended h (s.told source)

/--
**Reports point into the source.** However the program of a source is run, on any machine
and with any mistakes elsewhere in the source, the sink is told nothing about it or gets one
report that points into the source: at a token that suits what is said, and never at the
end mark or on line zero. In a session this comes on top of the mistakes in the source.
-/
theorem reported_run (source : String) (s : Session σ) :
    (∀ (m : Machine) (sink : σ),
      Reported source ((m.interpret (program source) sink).1 = .failed) sink
        (m.interpret (program source) sink).2.2 ∧
      Reported source ((m.interpretLine (program source) sink).1 = .failed) sink
        (m.interpretLine (program source) sink).2.2) ∧
    Reported source ((s.run source).1 = .runtimeError) (s.told source) (s.run source).2.sink ∧
    ∃ sink, Reported source ((s.runLine source).1 = .runtimeError) (s.told source) sink ∧
      (s.runLine source).2.sink = Sink.resetErrors sink := by
  refine ⟨fun m sink => ⟨?_, ?_⟩, ?_, ?_⟩
  · exact reported_conclude (m.executeAll_stopsAt _) sink
  · rw [Machine.interpretLine_eq]
    exact reported_conclude (m.runLine_stopsAt _) sink
  · rw [run_eq]
    exact reported_settled (s.machine.executeAll_stopsAt _) s
  · rw [runLine_eq]
    exact ⟨_, reported_settled (s.machine.runLine_stopsAt _) s, rfl⟩

end Session

end TinyScript
