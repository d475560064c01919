import TinyScript.Proofs.Source.LineEnds
import TinyScript.Proofs.Source.Numerals

/-!
# Lines are counted exactly

A segment is placed on a line by adding up the line feeds of the segments before it. Here
the line is read off the source instead: it is one more than the number of line feeds in
the text before the segment. A `Cut` is a segment of a source with the text on both sides
of it, and the tokens and diagnostics of a source are those of its cuts, on the lines that
the cuts are on. A mistake in a string literal is on the line where the literal ends, all
else is on the line where it begins.

Line feeds stand by themselves or in a string literal, good or bad. There are none in
blanks, comments, other tokens and stray characters, so nothing is counted there.

## Main results

* `Segment.Leads.count_lineFeed`: the segments that hold line feeds.
* `place_eq_map_cutsFrom`: counting segment by segment, and in the source.
* `lex_eq_of_cuts`: the lines of tokens and diagnostics.
-/

namespace TinyScript.Source

open Diagnostic (Mistake)
open Token (Kind Payload)

/-! ## Where line feeds stand -/

/-- Of all tokens only string literals hold line feeds. -/
theorem Lexeme.lineFeed_notMem_of_ne_text {k : Kind} {cs : List Char} {payload : Option Payload}
    (h : Lexeme k cs payload) (hKind : k ≠ .text) : '\n' ∉ cs := by
  cases h with
  | symbol hSymbol =>
      rcases exists_of_isSymbol hSymbol with ⟨c, hText, hFound⟩ | ⟨c, hText, hFound⟩
      · rw [hText, List.mem_singleton]
        rintro rfl
        cases hFound
      · rw [hText]
        intro hMem
        rcases List.mem_cons.1 hMem with rfl | hEqual
        · cases hFound
        · exact absurd hEqual (by decide)
  | keyword hWord =>
      obtain ⟨c, ds, hText, hStart, hParts⟩ := exists_of_isKeyword hWord
      rw [hText]
      intro hMem
      rcases List.mem_cons.1 hMem with rfl | hPart
      · exact absurd hStart (by decide)
      · exact absurd (hParts _ hPart) (by decide)
  | name hStart hParts hFree =>
      intro hMem
      rcases List.mem_cons.1 hMem with rfl | hPart
      · exact absurd hStart (by decide)
      · exact absurd (hParts _ hPart) (by decide)
  | whole hSome hDigits => exact (Lexeme.whole hSome hDigits).lineFeed_notMem
  | fraction hSome hDigits hSome' hDigits' =>
      exact (Lexeme.fraction hSome hDigits hSome' hDigits').lineFeed_notMem
  | text => exact absurd rfl hKind

namespace Segment

/-- The line feeds of a segment that are counted: one for a line feed, and those in a string
literal. -/
def feeds : Segment → Nat
  | .lineFeed => 1
  | .token kind lexeme _ => if kind = .text then lexeme.count '\n' else 0
  | .badEscape literal => literal.count '\n'
  | .openString literal => literal.count '\n'
  | _ => 0

/-- Blanks, comments, stray characters and tokens other than string literals hold no line
feed. -/
theorem Leads.count_lineFeed {s : Segment} {rest : List Char} (h : s.Leads rest) :
    s.text.count '\n' = s.feeds := by
  cases s with
  | blank run =>
      refine List.count_eq_zero_of_not_mem fun hMem => ?_
      exact absurd (h.2.1 _ hMem) (by decide)
  | lineFeed => rfl
  | comment run =>
      obtain ⟨⟨body, rfl, hBody⟩, -⟩ := h
      refine List.count_eq_zero_of_not_mem fun hMem => ?_
      have hInside : '\n' ∈ body := by simpa [text] using hMem
      exact absurd (hBody _ hInside) (by decide)
  | token kind lexeme payload =>
      by_cases hKind : kind = .text
      · exact (if_pos hKind).symm
      · rw [feeds, if_neg hKind]
        exact List.count_eq_zero_of_not_mem (h.1.lineFeed_notMem_of_ne_text hKind)
  | badEscape literal => rfl
  | openString literal => rfl
  | stray c =>
      refine List.count_eq_zero_of_not_mem fun hMem => ?_
      exact h.2.1 (List.mem_singleton.1 hMem).symm

end Segment

/-! ## Cuts -/

/-- A segment of a source, with the text before it and the text after it. -/
structure Cut (source : List Char) where
  before : List Char
  segment : Segment
  after : List Char
  whole : before ++ segment.text ++ after = source
  leads : segment.Leads after

namespace Cut

variable {source : List Char}

/-- The line of the first character of a segment: there are as many lines above it as line
feeds before it. -/
def firstLine (c : Cut source) : Nat :=
  1 + c.before.count '\n'

/-- The line on which a segment ends. -/
def lastLine (c : Cut source) : Nat :=
  1 + (c.before ++ c.segment.text).count '\n'

/-- The token of a token segment, on the line of its first character. -/
def token? (c : Cut source) : Option Token :=
  match c.segment with
  | .token kind lexeme payload => some ⟨kind, String.ofList lexeme, payload, c.firstLine⟩
  | _ => none

/-- The report of a segment that is no token. A stray character is reported on its line, a
string literal on the line where the scan for its end stopped. -/
def diagnostic? (c : Cut source) : Option Diagnostic :=
  match c.segment with
  | .stray _ => some (Mistake.strayCharacter.onLine c.firstLine)
  | .badEscape _ => some (Mistake.illegalEscape.onLine c.lastLine)
  | .openString _ => some (Mistake.openString.onLine c.lastLine)
  | _ => none

/-- The segment on its line. -/
def placed (c : Cut source) : Placed :=
  ⟨c.segment, c.firstLine⟩

theorem endLine_placed (c : Cut source) : c.placed.endLine = c.lastLine := by
  simp only [placed, Placed.endLine, firstLine, lastLine, List.count_append]
  omega

theorem token?_placed (c : Cut source) : c.placed.token? = c.token? := by
  unfold Placed.token? token? placed
  cases c.segment <;> rfl

theorem diagnostic?_placed (c : Cut source) : c.placed.diagnostic? = c.diagnostic? := by
  unfold Placed.diagnostic? diagnostic?
  rw [endLine_placed]
  unfold placed
  cases c.segment <;> rfl

end Cut

/-- The segments of a source from some text on, as cuts. -/
def cutsFrom (source before : List Char) : (segs : List Segment) → Tiled segs →
    before ++ segs.flatMap Segment.text = source → List (Cut source)
  | [], _, _ => []
  | s :: rest, hTiled, hWhole =>
    ⟨before, s, rest.flatMap Segment.text, by simpa using hWhole, hTiled.1⟩ ::
      cutsFrom source (before ++ s.text) rest hTiled.2 (by simpa using hWhole)

/-- The segments of a source as cuts. -/
def cuts (source : List Char) : List (Cut source) :=
  cutsFrom source [] (segments source) (tiled_segments source) (flatMap_text_segments source)

section CutsFrom

variable {source before : List Char} {segs : List Segment} (hTiled : Tiled segs)
  (hWhole : before ++ segs.flatMap Segment.text = source)

theorem map_segment_cutsFrom :
    (cutsFrom source before segs hTiled hWhole).map Cut.segment = segs := by
  induction segs generalizing before with
  | nil => rfl
  | cons s rest ih => exact congrArg (s :: ·) (ih hTiled.2 _)

/-- The cuts follow one another: what is before one of them is what the earlier ones are. -/
theorem before_of_cutsFrom_eq {front back : List (Cut source)} {c : Cut source}
    (h : cutsFrom source before segs hTiled hWhole = front ++ c :: back) :
    c.before = before ++ front.flatMap fun cut => cut.segment.text := by
  induction segs generalizing before front with
  | nil => simp [cutsFrom] at h
  | cons s rest ih =>
      rw [cutsFrom] at h
      cases front with
      | nil =>
          cases h
          simp
      | cons first front =>
          obtain ⟨rfl, hRest⟩ := List.cons.inj h
          rw [ih hTiled.2 _ hRest]
          simp

/-- **Adding up line feeds segment by segment** gives the lines that the source has. -/
theorem place_eq_map_cutsFrom :
    (place (1 + before.count '\n') segs).1 =
      (cutsFrom source before segs hTiled hWhole).map Cut.placed := by
  induction segs generalizing before with
  | nil => rfl
  | cons s rest ih =>
      have hNext : 1 + before.count '\n' + s.text.count '\n' =
          1 + (before ++ s.text).count '\n' := by
        rw [List.count_append]
        omega
      rw [place_cons, cutsFrom, hNext, ih hTiled.2]
      rfl

end CutsFrom

/-! ## Lines in order -/

namespace Placed

variable {p : Placed}

theorem line_of_token? {t : Token} (h : p.token? = some t) : t.line = p.line := by
  obtain ⟨s, line⟩ := p
  cases s <;> cases h
  rfl

/-- A mistake is not reported below the end of its segment. -/
theorem line_le_of_diagnostic? {d : Diagnostic} (h : p.diagnostic? = some d) :
    d.line ≤ p.endLine := by
  have hLe : p.line ≤ p.endLine := Nat.le_add_right _ _
  unfold diagnostic? Segment.diagnosticOn? at h
  split at h <;> cases h
  · exact Nat.le_refl _
  · exact Nat.le_refl _
  · exact hLe

end Placed

/-- No segment ends below the line that the last one ends on. -/
theorem endLine_le_of_mem_place {line : Nat} {segs : List Segment} {p : Placed}
    (h : p ∈ (place line segs).1) : p.endLine ≤ (place line segs).2 := by
  induction segs generalizing line with
  | nil => cases h
  | cons s rest ih =>
      rw [place_cons] at h ⊢
      rcases List.mem_cons.1 h with rfl | hMem
      · rw [snd_place]
        exact Nat.le_add_right _ _
      · exact ih hMem

/-- Segments start in the order of their lines. -/
theorem pairwise_line_place (line : Nat) (segs : List Segment) :
    (place line segs).1.Pairwise fun p q => p.line ≤ q.line := by
  induction segs generalizing line with
  | nil => exact .nil
  | cons s rest ih =>
      rw [place_cons]
      refine .cons (fun q hq => ?_) (ih _)
      exact Nat.le_trans (Nat.le_add_right _ _) (le_line_of_mem_place hq)

variable (source : String)

theorem line_le_of_mem_tokens {t : Token} (h : t ∈ (lex source).tokens) :
    t.line ≤ 1 + source.toList.count '\n' := by
  rw [tokens_lex, snd_place_segments] at h
  rcases List.mem_append.1 h with hMem | hMem
  · obtain ⟨p, hPlaced, hToken⟩ := List.mem_filterMap.1 hMem
    have hEnd := endLine_le_of_mem_place hPlaced
    rw [snd_place_segments] at hEnd
    rw [Placed.line_of_token? hToken]
    exact Nat.le_trans (Nat.le_add_right _ _) hEnd
  · rw [List.mem_singleton.1 hMem]
    exact Nat.le_refl _

theorem line_le_of_mem_diagnostics {d : Diagnostic} (h : d ∈ (lex source).diagnostics) :
    d.line ≤ 1 + source.toList.count '\n' := by
  rw [diagnostics_lex] at h
  obtain ⟨p, hPlaced, hReport⟩ := List.mem_filterMap.1 h
  have hEnd := endLine_le_of_mem_place hPlaced
  rw [snd_place_segments] at hEnd
  exact Nat.le_trans (Placed.line_le_of_diagnostic? hReport) hEnd

/-- The lines of tokens never decrease. -/
theorem pairwise_line_tokens : (lex source).tokens.Pairwise fun t u => t.line ≤ u.line := by
  have hPlaced := pairwise_line_place 1 (segments source.toList)
  have hLast := fun t => @line_le_of_mem_tokens source t
  rw [tokens_lex, snd_place_segments] at hLast ⊢
  refine List.pairwise_append.2 ⟨?_, List.pairwise_singleton _ _, ?_⟩
  · refine List.pairwise_filterMap.2 (hPlaced.imp fun hLe t ht u hu => ?_)
    rw [Placed.line_of_token? ht, Placed.line_of_token? hu]
    exact hLe
  · intro t ht mark hMark
    rw [List.mem_singleton.1 hMark]
    exact hLast t (List.mem_append_left _ ht)

/-! ## Sources -/

/-- The cuts of a source, where its segments are placed. -/
theorem place_segments :
    (place 1 (segments source.toList)).1 = (cuts source.toList).map Cut.placed :=
  @place_eq_map_cutsFrom source.toList [] _ (tiled_segments _) (flatMap_text_segments _)

/--
**Line numbers are exact.** The cuts of a source make it up, one after the other. The tokens
are those of the cuts, each on the line that is one more than the number of line feeds
before its first character, and the end mark is on the line that is one more than the
number of all line feeds. Stray characters are reported on their line, string literals that
are open or have a bad escape on the line where the scan for their end stopped. So the
lines of tokens never decrease. Of the line feeds before a cut, those in string literals
count as much as those between tokens, and there are no others. In a source of fewer than
`2 ^ 32 - 1` line feeds all lines are numbers of 32 bits.
-/
theorem lex_eq_of_cuts :
    (cuts source.toList).flatMap (fun c => c.segment.text) = source.toList ∧
    (∀ front c back, cuts source.toList = front ++ c :: back →
      c.before = front.flatMap (fun c => c.segment.text) ∧
      c.firstLine = 1 + (front.map fun c => c.segment.feeds).sum) ∧
    (lex source).tokens = (cuts source.toList).filterMap Cut.token? ++
      [.endOfFile (1 + source.toList.count '\n')] ∧
    (lex source).diagnostics = (cuts source.toList).filterMap Cut.diagnostic? ∧
    ((lex source).tokens.Pairwise fun t u => t.line ≤ u.line) ∧
    (source.toList.count '\n' < 2 ^ 32 - 1 →
      (∀ t ∈ (lex source).tokens, t.line < 2 ^ 32) ∧
      ∀ d ∈ (lex source).diagnostics, d.line < 2 ^ 32) := by
  refine ⟨?_, ?_, ?_, ?_, pairwise_line_tokens source, ?_⟩
  · have hSegments : (cuts source.toList).map Cut.segment = segments source.toList :=
      map_segment_cutsFrom _ _
    rw [← List.flatMap_map, hSegments, flatMap_text_segments]
  · intro front c back hSplit
    have hBefore : c.before = front.flatMap fun c => c.segment.text :=
      before_of_cutsFrom_eq _ _ hSplit
    refine ⟨hBefore, ?_⟩
    rw [Cut.firstLine, hBefore, List.count_flatMap]
    refine congrArg (fun feeds => 1 + List.sum feeds) (List.map_congr_left fun c _ => ?_)
    exact c.leads.count_lineFeed
  · rw [tokens_lex, snd_place_segments, place_segments, List.filterMap_map]
    exact congrArg (fun f => List.filterMap f _ ++ _) (funext Cut.token?_placed)
  · rw [diagnostics_lex, place_segments, List.filterMap_map]
    exact congrArg (fun f => List.filterMap f _) (funext Cut.diagnostic?_placed)
  · intro hFew
    constructor
    · intro t ht
      have hLe := line_le_of_mem_tokens source ht
      omega
    · intro d hd
      have hLe := line_le_of_mem_diagnostics source hd
      omega

example : (lex "a // b\r\n\"c\nd\" @").tokens.map Token.line = [1, 2, 3] ∧
    (lex "a // b\r\n\"c\nd\" @").diagnostics.map Diagnostic.line = [3] := by
  decide +kernel

end TinyScript.Source
