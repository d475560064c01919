import TinyScript.Proofs.Source.Tiling
import TinyScript.Proofs.Text.Quoting

/-!
# Numbers in a source

What stands in a source is read back as a number token if it is a number lexeme and is not
followed by more of one. The lemmas of `Tiling` say what the segments of a source are; here
the text is given, and the segments are to be found. The few other segments that a number
is printed with are found in the same way.

A source without a line feed has all its tokens on its first line.

## Main results

* `segments_number`: a number lexeme, in front of anything that does not continue it.
* `lex_of_oneLine`: the tokens and mistakes of a source of one line.
-/

namespace TinyScript.Source

open Token (Payload)

variable {c : Char} {cs ds rest : List Char} {payload : Option Payload}

/-! ## Number lexemes -/

namespace Lexeme

/-- The digits of a number lexeme before and after its point. -/
theorem exists_digits (h : Lexeme .number cs payload) :
    ∃ c ds, c.isDigit = true ∧ (∀ d ∈ ds, d.isDigit = true) ∧
      ((cs = c :: ds ∧ payload = some (.number (Decimal.ofDigits (c :: ds) []).toFloat)) ∨
        ∃ e es, (∀ d ∈ e :: es, d.isDigit = true) ∧ cs = c :: (ds ++ '.' :: e :: es) ∧
          payload = some (.number (Decimal.ofDigits (c :: ds) (e :: es)).toFloat)) := by
  cases h with
  | symbol h => cases h
  | keyword h => cases h
  | whole hSome hDigits =>
    obtain ⟨c, ds, rfl⟩ := List.exists_cons_of_ne_nil hSome
    obtain ⟨hDigit, hMore⟩ := List.forall_mem_cons.1 hDigits
    exact ⟨c, ds, hDigit, hMore, .inl ⟨rfl, rfl⟩⟩
  | fraction hSome hDigits hSome' hDigits' =>
    obtain ⟨c, ds, rfl⟩ := List.exists_cons_of_ne_nil hSome
    obtain ⟨e, es, rfl⟩ := List.exists_cons_of_ne_nil hSome'
    obtain ⟨hDigit, hMore⟩ := List.forall_mem_cons.1 hDigits
    exact ⟨c, ds, hDigit, hMore, .inr ⟨e, es, hDigits', rfl, rfl⟩⟩

theorem isDigit_of_mem_head? (h : Lexeme .number cs payload) (hHead : c ∈ (cs ++ rest).head?) :
    c.isDigit = true := by
  obtain ⟨d, ds, hDigit, -, ⟨rfl, -⟩ | ⟨e, es, -, rfl, -⟩⟩ := h.exists_digits
  · cases hHead
    exact hDigit
  · cases hHead
    exact hDigit

theorem lineFeed_notMem (h : Lexeme .number cs payload) : '\n' ∉ cs := by
  have hFeed : ∀ ds : List Char, (∀ d ∈ ds, d.isDigit = true) → '\n' ∉ ds := by
    intro ds hDigits hMem
    exact absurd (hDigits _ hMem) (by decide)
  obtain ⟨c, ds, hDigit, hDigits, hShape⟩ := h.exists_digits
  have hWhole : '\n' ∉ c :: ds := hFeed _ (List.forall_mem_cons.2 ⟨hDigit, hDigits⟩)
  rcases hShape with ⟨rfl, -⟩ | ⟨e, es, hDigits', rfl, -⟩
  · exact hWhole
  · have hFraction : '\n' ∉ '.' :: e :: es := by
      simpa using hFeed _ hDigits'
    intro hMem
    exact (List.mem_append.1 (hMem : '\n' ∈ (c :: ds) ++ '.' :: e :: es)).elim hWhole hFraction

end Lexeme

/-! ## The first segment -/

namespace Segment

theorem isBlank_of_isDigit (h : c.isDigit = true) : isBlank c = false := by
  apply Bool.eq_false_iff.2
  intro hBlank
  simp only [isBlank, Bool.or_eq_true, beq_iff_eq] at hBlank
  rcases hBlank with (rfl | rfl) | rfl <;> exact absurd h (by decide)

theorem first_of_isDigit (cs : List Char) (h : c.isDigit = true) : first c cs = number c cs := by
  have hOther : ∀ d : Char, d.isDigit = false → c ≠ d := by
    rintro d hd rfl
    rw [h] at hd
    cases hd
  rw [first, isBlank_of_isDigit h, if_neg Bool.false_ne_true, if_neg (hOther '\n' rfl),
    if_neg (hOther '"' rfl), if_pos h]

theorem fraction?_eq_none (h : ∀ c ∈ rest.head?, c ≠ '.') : fraction? rest = none := by
  unfold fraction?
  split
  · exact absurd rfl (h '.' rfl)
  · rfl

theorem number_whole (hDigits : ∀ d ∈ ds, d.isDigit = true)
    (hRest : ∀ c ∈ rest.head?, c.isDigit = false ∧ c ≠ '.') :
    number c (ds ++ rest) =
      (.token .number (c :: ds) (some (.number (Decimal.ofDigits (c :: ds) []).toFloat)), rest) := by
  obtain ⟨hTake, hDrop⟩ := Text.takeWhile_append_of_head? hDigits fun c hc => (hRest c hc).1
  have hNone := fraction?_eq_none fun c hc => (hRest c hc).2
  rw [number, hTake, hDrop, hNone]

theorem number_fraction {e : Char} {es : List Char} (hDigits : ∀ d ∈ ds, d.isDigit = true)
    (hDigits' : ∀ d ∈ e :: es, d.isDigit = true) (hRest : ∀ c ∈ rest.head?, c.isDigit = false) :
    number c (ds ++ '.' :: e :: es ++ rest) =
      (.token .number (c :: (ds ++ '.' :: e :: es))
        (some (.number (Decimal.ofDigits (c :: ds) (e :: es)).toFloat)), rest) := by
  obtain ⟨hDigit, hMore⟩ := List.forall_mem_cons.1 hDigits'
  obtain ⟨hTake, hDrop⟩ := Text.takeWhile_append_of_head? hMore hRest
  have hWhole : (ds ++ '.' :: e :: es ++ rest).takeWhile Char.isDigit = ds := by
    rw [List.append_assoc]
    exact (Text.takeWhile_append_of_head? hDigits (by simp)).1
  rw [number, hWhole, fraction?_of_digits hDigits hDigit, hTake, hDrop]
  rfl

end Segment

/-! ## Given segments -/

/-- A number lexeme is read as one token, in front of anything that does not continue it. -/
theorem segments_number (h : Lexeme .number cs payload)
    (hRest : ∀ c ∈ rest.head?, c.isDigit = false ∧ c ≠ '.') :
    segments (cs ++ rest) = .token .number cs payload :: segments rest := by
  obtain ⟨c, ds, hDigit, hDigits, ⟨rfl, rfl⟩ | ⟨e, es, hDigits', rfl, rfl⟩⟩ := h.exists_digits
  · rw [List.cons_append, segments_cons, Segment.first_of_isDigit _ hDigit,
      Segment.number_whole hDigits hRest]
  · rw [List.cons_append, segments_cons, Segment.first_of_isDigit _ hDigit,
      Segment.number_fraction hDigits hDigits' fun c hc => (hRest c hc).1]

theorem segments_minus (rest : List Char) :
    segments ('-' :: rest) = .token .minus ['-'] none :: segments rest := by
  rw [segments_cons]
  rfl

theorem segments_semicolon : segments [';'] = [.token .semicolon [';'] none] := by
  rw [segments_cons]
  exact congrArg _ segments_nil

theorem segments_print (h : ∀ c ∈ rest.head?, Segment.isBlank c = false) :
    segments ("print ".toList ++ rest) =
      .token .kwPrint "print".toList none :: .blank [' '] :: segments rest := by
  have hWord : Segment.first 'p' ('r' :: 'i' :: 'n' :: 't' :: ' ' :: rest) =
      (.token .kwPrint "print".toList none, ' ' :: rest) := rfl
  have hSpace : Segment.first ' ' rest = (.blank [' '], rest) := by
    obtain ⟨hTake, hDrop⟩ := Text.takeWhile_append_of_head? (List.forall_mem_nil _) h
    rw [List.nil_append] at hTake hDrop
    rw [Segment.first, if_pos (by decide), hTake, hDrop]
  change segments ('p' :: 'r' :: 'i' :: 'n' :: 't' :: ' ' :: rest) = _
  rw [segments_cons, hWord, segments_cons, hSpace]

/-! ## Sources of one line -/

theorem place_of_oneLine {segs : List Segment} (line : Nat)
    (h : '\n' ∉ segs.flatMap Segment.text) :
    place line segs = (segs.map fun s => ⟨s, line⟩, line) := by
  induction segs with
  | nil => rfl
  | cons s rest ih =>
    rw [List.flatMap_cons, List.mem_append, not_or] at h
    rw [place_cons, List.count_eq_zero_of_not_mem h.1, Nat.add_zero, ih h.2]
    rfl

/-- The tokens and mistakes of a source of one line. -/
theorem lex_of_oneLine {source : String} {segs : List Segment}
    (hSegments : segments source.toList = segs) (h : '\n' ∉ source.toList) :
    lex source = ⟨segs.filterMap (fun s => Placed.token? ⟨s, 1⟩) ++ [.endOfFile 1],
      segs.filterMap fun s => Placed.diagnostic? ⟨s, 1⟩⟩ := by
  rw [← flatMap_text_segments source.toList, hSegments] at h
  unfold lex
  rw [hSegments, place_of_oneLine 1 h]
  simp only [List.filterMap_map]
  rfl

end TinyScript.Source
