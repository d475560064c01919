import TinyScript.Proofs.Program.Lines
import TinyScript.Proofs.Source.Tiling

/-!
# Reading is local at line feeds

No segment but a string literal reaches across a line feed. So a source that no string
is left open in is cut into the same segments whether or not a line feed and a further
source follow it, and the further source is cut as it would be on its own, only that it
starts on a later line.

There is one lemma for each function that reads a segment. They all have one shape: what
is read in front of a line feed is what is read at the end of a source, and the line feed
with all behind it is left over.

## Main results

* `Segment.first_append_lineFeed`, `segments_append_lineFeed`: segments on both sides of
  a line feed.
* `tokens_lex_append`, `diagnostics_lex_append`: tokens and diagnostics.
* `lex_append_lineFeed`: both, with the end mark and the lines spelled out.
-/

namespace TinyScript

namespace Source

namespace Segment

variable {c : Char} {cs : List Char}

/-! ## The first segment -/

theorem takeWhile_append_lineFeed {p : Char → Bool} (h : p '\n' = false) (cs b : List Char) :
    (cs ++ '\n' :: b).takeWhile p = cs.takeWhile p := by
  induction cs with
  | nil => simp [h]
  | cons c rest ih => simp only [List.cons_append, List.takeWhile_cons, ih]

theorem dropWhile_append_lineFeed {p : Char → Bool} (h : p '\n' = false) (cs b : List Char) :
    (cs ++ '\n' :: b).dropWhile p = cs.dropWhile p ++ '\n' :: b := by
  induction cs with
  | nil => simp [h]
  | cons c rest ih =>
      simp only [List.cons_append, List.dropWhile_cons, ih]
      split <;> rfl

theorem word_append_lineFeed (c : Char) (cs b : List Char) :
    word c (cs ++ '\n' :: b) = ((word c cs).1, (word c cs).2 ++ '\n' :: b) := by
  have hPart : isNamePart '\n' = false := by decide
  simp only [word, takeWhile_append_lineFeed hPart, dropWhile_append_lineFeed hPart]

/-- A point in front of a line feed starts no fraction. -/
theorem fraction?_append_lineFeed (cs b : List Char) :
    fraction? (cs ++ '\n' :: b) =
      (fraction? cs).map fun found => (found.1, found.2 ++ '\n' :: b) := by
  have hDigit : ('\n' : Char).isDigit = false := by decide
  rcases cs with _ | ⟨c, _ | ⟨d, rest⟩⟩
  · rfl
  · by_cases hPoint : c = '.'
    · subst hPoint
      simp [fraction?, hDigit]
    · simp [fraction?, hPoint]
  · by_cases hPoint : c = '.'
    · subst hPoint
      by_cases hFirst : d.isDigit
      · simp [fraction?, hFirst, takeWhile_append_lineFeed hDigit, dropWhile_append_lineFeed hDigit]
      · simp [fraction?, hFirst]
    · simp [fraction?, hPoint]

theorem number_append_lineFeed (c : Char) (cs b : List Char) :
    number c (cs ++ '\n' :: b) = ((number c cs).1, (number c cs).2 ++ '\n' :: b) := by
  have hDigit : ('\n' : Char).isDigit = false := by decide
  unfold number
  rw [takeWhile_append_lineFeed hDigit, dropWhile_append_lineFeed hDigit, fraction?_append_lineFeed]
  cases fraction? (cs.dropWhile Char.isDigit) <;> rfl

/-- A string that is closed stays closed, whatever comes after it. -/
theorem closeString_append {acc body rest : List Char} (h : closeString acc cs = some (body, rest))
    (b : List Char) : closeString acc (cs ++ b) = some (body, rest ++ b) := by
  obtain ⟨read, rfl, rfl, hUnits⟩ := exists_units_of_closeString h
  rw [List.append_assoc, List.cons_append]
  exact closeString_of_units hUnits acc (rest ++ b)

theorem string_append (h : ∀ literal, (string cs).1 ≠ .openString literal)
    (b : List Char) : string (cs ++ b) = ((string cs).1, (string cs).2 ++ b) := by
  unfold string at h ⊢
  cases hClose : closeString [] cs with
  | none =>
      rw [hClose] at h
      exact absurd rfl (h _)
  | some found =>
      rw [closeString_append hClose]
      dsimp only
      split <;> rfl

theorem symbol_append_lineFeed (c : Char) (cs b : List Char) :
    symbol c (cs ++ '\n' :: b) = ((symbol c cs).1, (symbol c cs).2 ++ '\n' :: b) := by
  unfold symbol
  cases symbolEqual? c with
  | none => cases symbol? c <;> rfl
  | some kind =>
      rcases cs with _ | ⟨d, rest⟩
      · cases symbol? c <;> rfl
      · by_cases hEqual : d = '='
        · subst hEqual
          rfl
        · cases symbol? c <;> simp [hEqual]

/-- The first segment of a source does not change with what follows a line feed, unless it is
a string that the source leaves open. -/
theorem first_append_lineFeed (h : ∀ literal, (first c cs).1 ≠ .openString literal)
    (b : List Char) :
    first c (cs ++ '\n' :: b) = ((first c cs).1, (first c cs).2 ++ '\n' :: b) := by
  have hBlank : isBlank '\n' = false := by decide
  have hLine : (!isLineEnd '\n') = false := by decide
  have hHead : (cs ++ '\n' :: b).head? = some '/' ↔ cs.head? = some '/' := by
    cases cs <;> simp
  unfold first at h ⊢
  simp only [hHead]
  split
  · rw [takeWhile_append_lineFeed hBlank, dropWhile_append_lineFeed hBlank]
  split
  · rfl
  split
  · next hSpace hFeed hQuote =>
      rw [if_neg hSpace, if_neg hFeed, if_pos hQuote] at h
      exact string_append h _
  split
  · exact number_append_lineFeed c cs b
  split
  · exact word_append_lineFeed c cs b
  split
  · rw [takeWhile_append_lineFeed hLine, dropWhile_append_lineFeed hLine]
  · exact symbol_append_lineFeed c cs b

end Segment

/-! ## All segments -/

/-- A line feed cuts a source in two, unless a string is open in front of it. -/
theorem segments_append_lineFeed {a : List Char}
    (h : ∀ literal, Segment.openString literal ∉ segments a) (b : List Char) :
    segments (a ++ '\n' :: b) = segments a ++ .lineFeed :: segments b := by
  induction a using segments_induction with
  | nil =>
      rw [segments_nil, List.nil_append, List.nil_append, segments_cons]
      rfl
  | cons c rest ih =>
      rw [segments_cons] at h
      have hFirst : ∀ literal, (Segment.first c rest).1 ≠ .openString literal :=
        fun literal hOpen => h literal (hOpen ▸ List.mem_cons_self)
      have hRest := ih fun literal hMem => h literal (List.mem_cons_of_mem _ hMem)
      rw [List.cons_append, segments_cons, Segment.first_append_lineFeed hFirst, segments_cons]
      exact congrArg _ hRest

/-! ## Lines -/

theorem place_append (line : Nat) (xs ys : List Segment) :
    place line (xs ++ ys) =
      ((place line xs).1 ++ (place (place line xs).2 ys).1, (place (place line xs).2 ys).2) := by
  induction xs generalizing line with
  | nil => rfl
  | cons s rest ih =>
      rw [List.cons_append, place_cons, place_cons, ih]
      rfl

/-- Segments end as many lines below their start as there are line feeds in them. -/
theorem snd_place (line : Nat) (segs : List Segment) :
    (place line segs).2 = line + (segs.flatMap Segment.text).count '\n' := by
  induction segs generalizing line with
  | nil => rfl
  | cons s rest ih =>
      rw [place_cons, ih, List.flatMap_cons, List.count_append]
      omega

namespace Segment

theorem tokenOn?_mapLine (f : Nat → Nat) (line : Nat) (s : Segment) :
    s.tokenOn? (f line) = (s.tokenOn? line).map (Token.mapLine f) := by
  cases s <;> rfl

theorem diagnosticOn?_mapLine (f : Nat → Nat) (line endLine : Nat) (s : Segment) :
    s.diagnosticOn? (f line) (f endLine) =
      (s.diagnosticOn? line endLine).map (Diagnostic.mapLine f) := by
  cases s <;> rfl

end Segment

namespace Placed

/-- The segment `d` lines further down. -/
def lower (d : Nat) (p : Placed) : Placed :=
  { p with line := p.line + d }

theorem endLine_lower (d : Nat) (p : Placed) : (p.lower d).endLine = p.endLine + d := by
  simp only [lower, endLine]
  omega

theorem token?_lower (d : Nat) (p : Placed) :
    (p.lower d).token? = p.token?.map (Token.mapLine (· + d)) :=
  p.segment.tokenOn?_mapLine (· + d) p.line

theorem diagnostic?_lower (d : Nat) (p : Placed) :
    (p.lower d).diagnostic? = p.diagnostic?.map (Diagnostic.mapLine (· + d)) := by
  rw [diagnostic?, endLine_lower]
  exact p.segment.diagnosticOn?_mapLine (· + d) p.line p.endLine

end Placed

/-- What moved elements give is what the elements give, moved as well. -/
theorem filterMap_map_of_eq {α β : Type} {give : α → Option β} {f : α → α} {g : β → β}
    (h : ∀ a, give (f a) = (give a).map g) (as : List α) :
    (as.map f).filterMap give = (as.filterMap give).map g := by
  rw [List.filterMap_map, List.map_filterMap]
  exact congrArg (fun p => as.filterMap p) (funext h)

theorem filterMap_token?_lower (d : Nat) (placed : List Placed) :
    (placed.map (Placed.lower d)).filterMap Placed.token? =
      (placed.filterMap Placed.token?).map (Token.mapLine (· + d)) :=
  filterMap_map_of_eq (Placed.token?_lower d) placed

theorem filterMap_diagnostic?_lower (d : Nat) (placed : List Placed) :
    (placed.map (Placed.lower d)).filterMap Placed.diagnostic? =
      (placed.filterMap Placed.diagnostic?).map (Diagnostic.mapLine (· + d)) :=
  filterMap_map_of_eq (Placed.diagnostic?_lower d) placed

/-- Segments that start further down are all further down, by as much. -/
theorem place_add (line d : Nat) (segs : List Segment) :
    place (line + d) segs = ((place line segs).1.map (Placed.lower d), (place line segs).2 + d) := by
  induction segs generalizing line with
  | nil => rfl
  | cons s rest ih =>
      rw [place_cons, place_cons, Nat.add_right_comm, ih]
      rfl

/-! ## Sources -/

/-- How far down a source starts that follows `a` and a line feed. -/
def linesBelow (a : String) : Nat :=
  1 + a.toList.count '\n'

theorem snd_place_segments (source : String) :
    (place 1 (segments source.toList)).2 = 1 + source.toList.count '\n' := by
  rw [snd_place, flatMap_text_segments]

/-- The end mark of a source is its last token, below all its line feeds. -/
theorem tokens_lex_eq_concat (source : String) :
    (lex source).tokens =
      (lex source).tokens.dropLast ++ [.endOfFile (1 + source.toList.count '\n')] := by
  rw [tokens_lex, List.dropLast_concat, snd_place_segments]

/-- Segments on both sides of a line feed, with their lines. -/
theorem place_append_lineFeed {a : String}
    (h : ∀ literal, Segment.openString literal ∉ segments a.toList) (b : String) :
    place 1 (segments (a ++ "\n" ++ b).toList) =
      ((place 1 (segments a.toList)).1 ++ ⟨.lineFeed, linesBelow a⟩ ::
          (place 1 (segments b.toList)).1.map (Placed.lower (linesBelow a)),
        (place 1 (segments b.toList)).2 + linesBelow a) := by
  have hSource : (a ++ "\n" ++ b).toList = a.toList ++ '\n' :: b.toList := by
    simp
  have hEnd : (place 1 (segments a.toList)).2 = linesBelow a := snd_place_segments a
  have hFeed : linesBelow a + Segment.lineFeed.text.count '\n' = 1 + linesBelow a :=
    Nat.add_comm _ _
  rw [hSource, segments_append_lineFeed h, place_append, hEnd, place_cons, hFeed, place_add]

/-- A string that is left open is reported. -/
theorem openString_notMem {source : String}
    (h : ∀ d ∈ (lex source).diagnostics, d.code ≠ .openString) (literal : List Char) :
    Segment.openString literal ∉ segments source.toList := by
  intro hMem
  rw [← map_segment_place 1 (segments source.toList)] at hMem
  obtain ⟨⟨s, line⟩, hPlaced, rfl⟩ := List.mem_map.1 hMem
  exact h _ (List.mem_filterMap.2 ⟨_, hPlaced, rfl⟩) rfl

section Joined

variable {a : String} (h : ∀ d ∈ (lex a).diagnostics, d.code ≠ .openString) (b : String)

include h

/-- The tokens of two sources with a line feed between them: those of the first without its end
mark, and then those of the second, moved down. -/
theorem tokens_lex_append :
    (lex (a ++ "\n" ++ b)).tokens =
      (lex a).tokens.dropLast ++ (lex b).tokens.map (Token.mapLine (· + linesBelow a)) := by
  rw [tokens_lex, place_append_lineFeed (openString_notMem h), tokens_lex, tokens_lex,
    List.dropLast_concat, List.map_append, ← filterMap_token?_lower, List.filterMap_append,
    List.append_assoc]
  rfl

/-- The diagnostics of two sources with a line feed between them. -/
theorem diagnostics_lex_append :
    (lex (a ++ "\n" ++ b)).diagnostics =
      (lex a).diagnostics ++ (lex b).diagnostics.map (Diagnostic.mapLine (· + linesBelow a)) := by
  rw [diagnostics_lex, place_append_lineFeed (openString_notMem h), diagnostics_lex,
    diagnostics_lex, ← filterMap_diagnostic?_lower, List.filterMap_append]
  rfl

end Joined

/--
**Reading is local at line feeds.** Let no string be left open in a source, and let a line
feed and any further source follow it. The tokens are those of the first source without its
end mark, and then those of the second source with its end mark, one line further down for
the line feed between them and for each line feed of the first source. The diagnostics are
those of the two sources, one after the other, moved down in the same way.
-/
theorem lex_append_lineFeed {a : String} (h : ∀ d ∈ (lex a).diagnostics, d.code ≠ .openString)
    (b : String) :
    ∃ words, (lex a).tokens = words ++ [.endOfFile (1 + a.toList.count '\n')] ∧
      (lex (a ++ "\n" ++ b)).tokens =
        words ++ (lex b).tokens.map (Token.mapLine (· + (1 + a.toList.count '\n'))) ∧
      (lex (a ++ "\n" ++ b)).diagnostics = (lex a).diagnostics ++
        (lex b).diagnostics.map (Diagnostic.mapLine (· + (1 + a.toList.count '\n'))) := by
  refine ⟨(lex a).tokens.dropLast, tokens_lex_eq_concat a, ?_, ?_⟩
  · exact tokens_lex_append h b
  · exact diagnostics_lex_append h b

/-- The first source stops in a comment with a quote in it, behind a number with a point, a
stray character and a string of two lines with a bad escape; the second one leaves a string
open. -/
theorem lex_append_lineFeed_comment :
    (∀ d ∈ (lex "@ 1.\"\n\\q\" ! // \"").diagnostics, d.code ≠ .openString) ∧
      ∃ words, (lex "@ 1.\"\n\\q\" ! // \"").tokens = words ++ [.endOfFile 2] ∧
        (lex "@ 1.\"\n\\q\" ! // \"\n= \"x").tokens =
          words ++ (lex "= \"x").tokens.map (Token.mapLine (· + 2)) ∧
        (lex "@ 1.\"\n\\q\" ! // \"\n= \"x").diagnostics =
          (lex "@ 1.\"\n\\q\" ! // \"").diagnostics ++
            (lex "= \"x").diagnostics.map (Diagnostic.mapLine (· + 2)) := by
  have hClosed : ∀ d ∈ (lex "@ 1.\"\n\\q\" ! // \"").diagnostics, d.code ≠ .openString := by
    decide +kernel
  exact ⟨hClosed, lex_append_lineFeed hClosed "= \"x"⟩

end Source

end TinyScript
