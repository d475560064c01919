import TinyScript.Source.Lexer
import TinyScript.Proofs.Source.Lexicon

/-!
# A source is tiled by its segments

The segments of a source, put together again, are the source: no character is lost and
none is used twice. Each of them is what its name says, in front of the segments that
follow it (`Segment.Leads`). For blanks, comments and tokens this says where they end as
well as what they are made of: a token is a lexeme of its kind, and no longer pattern
stands in its place.

Tokens and diagnostics are two views of the same segments, so what is proved of a
segment is proved of its token.

## Main results

* `Segment.leads_first`: the first segment of a source leads the rest, with one lemma
  for each function that reads a segment.
* `segments_induction`, `flatMap_text_segments`, `tiled_segments`: all segments of a source.
-/

namespace TinyScript

open Token (Kind Payload)

/-- What a token is, apart from the line it stands on. -/
def Token.content (t : Token) : Kind × String × Option Payload :=
  (t.kind, t.lexeme, t.payload)

namespace Source

namespace Segment

/-! ## Segments in their place -/

/-- Whether a segment is what its name says when `rest` follows it. -/
def Leads : Segment → List Char → Prop
  | .blank run, rest =>
    run ≠ [] ∧ (∀ c ∈ run, isBlank c = true) ∧ ∀ c ∈ rest.head?, isBlank c = false
  | .lineFeed, _ => True
  | .comment run, rest => IsComment run ∧ ∀ c ∈ rest.head?, isLineEnd c = true
  | .token kind lexeme payload, rest => Lexeme kind lexeme payload ∧ IsLongest lexeme rest
  | .badEscape literal, _ => ∃ body, literal = '"' :: (body ++ ['"']) ∧ Units body ∧ HasBadEscape body
  | .openString literal, rest =>
    rest = [] ∧ ∃ body, literal = '"' :: body ∧
      ∀ front back, body = front ++ '"' :: back → ¬Units front
  | .stray c, _ =>
    isBlank c = false ∧ c ≠ '\n' ∧ c ≠ '"' ∧ ∀ p, Pattern p → p.head? ≠ some c

/-- What is dropped ends where the characters of the class end. -/
theorem eq_false_of_mem_head?_dropWhile {p : Char → Bool} {cs : List Char} {c : Char}
    (h : c ∈ (cs.dropWhile p).head?) : p c = false := by
  have hStop := List.head?_dropWhile_not p cs
  rw [Option.mem_def.1 h] at hStop
  exact hStop

/-- A first part that is all of one class is no longer than the run of that class. -/
theorem length_le_length_takeWhile {p : Char → Bool} {xs cs : List Char} (h : xs <+: cs)
    (hAll : ∀ c ∈ xs, p c = true) : xs.length ≤ (cs.takeWhile p).length := by
  obtain ⟨rest, rfl⟩ := h
  rw [List.takeWhile_append_of_pos hAll, List.length_append]
  exact Nat.le_add_right _ _

/-- To compare with all patterns, compare with what may follow the first character. -/
theorem isLongest_cons {c : Char} {text rest cs : List Char} (hSplit : text ++ rest = cs)
    (h : ∀ ps, Shape c ps → ps <+: cs → ps.length ≤ text.length) : IsLongest (c :: text) rest := by
  intro p hPattern hPrefix
  obtain ⟨d, ps, rfl, hShape⟩ := hPattern.exists_shape
  rw [List.cons_append, hSplit, List.cons_prefix_cons] at hPrefix
  obtain ⟨rfl, hPrefix⟩ := hPrefix
  exact Nat.succ_le_succ (h ps hShape hPrefix)

/-! ## Words -/

theorem leads_word {c : Char} (cs : List Char) (hStart : isNameStart c = true) :
    (word c cs).1.Leads (word c cs).2 := by
  have hParts : ∀ d ∈ cs.takeWhile isNamePart, isNamePart d = true :=
    fun d hd => List.mem_takeWhile_imp hd
  refine ⟨?_, isLongest_cons List.takeWhile_append_dropWhile fun ps hShape hPrefix => ?_⟩
  · cases hKeyword : Kind.keyword? (String.ofList (c :: cs.takeWhile isNamePart)) with
    | some k =>
        obtain ⟨hWord, hSpelling⟩ := keyword?_eq_some_iff.1 hKeyword
        have hText : c :: cs.takeWhile isNamePart = k.spelling.toList := by
          rw [hSpelling, String.toList_ofList]
        rw [hText]
        exact .keyword hWord
    | none =>
        refine .name hStart hParts fun k hWord hText => ?_
        have hFound := keyword?_spelling hWord
        rw [← String.ofList_toList (s := k.spelling), hText, hKeyword] at hFound
        cases hFound
  · exact length_le_length_takeWhile hPrefix (hShape.forall_isNamePart hStart)

/-! ## Numbers -/

/-- A fraction is found wherever digits, a point and another digit stand. -/
theorem fraction?_of_digits {ds es rest : List Char} {e : Char} (hDigits : ∀ d ∈ ds, d.isDigit = true)
    (hDigit : e.isDigit = true) :
    fraction? ((ds ++ '.' :: e :: es ++ rest).dropWhile Char.isDigit) =
      some (e :: (es ++ rest).takeWhile Char.isDigit, (es ++ rest).dropWhile Char.isDigit) := by
  have hPoint : ('.' : Char).isDigit = false := by decide
  rw [List.append_assoc, List.dropWhile_append_of_pos hDigits]
  simp [hPoint, fraction?, hDigit]

/-- The digits of a fraction. -/
theorem digits_of_fraction? {cs fraction rest : List Char}
    (h : fraction? cs = some (fraction, rest)) :
    fraction ≠ [] ∧ ∀ d ∈ fraction, d.isDigit = true := by
  unfold fraction? at h
  split at h
  · next d rest' =>
      by_cases hDigit : d.isDigit
      · rw [if_pos hDigit] at h
        cases h
        exact ⟨List.cons_ne_nil _ _,
          List.forall_mem_cons.2 ⟨hDigit, fun d hd => List.mem_takeWhile_imp hd⟩⟩
      · rw [if_neg hDigit] at h
        cases h
  · cases h

theorem leads_number {c : Char} (cs : List Char) (hDigit : c.isDigit = true) :
    (number c cs).1.Leads (number c cs).2 := by
  have hWhole : ∀ d ∈ c :: cs.takeWhile Char.isDigit, d.isDigit = true :=
    List.forall_mem_cons.2 ⟨hDigit, fun d hd => List.mem_takeWhile_imp hd⟩
  unfold number
  cases hFraction : fraction? (cs.dropWhile Char.isDigit) with
  | none =>
      refine ⟨.whole (List.cons_ne_nil _ _) hWhole,
        isLongest_cons List.takeWhile_append_dropWhile fun ps hShape hPrefix => ?_⟩
      rcases hShape.digits_or_fraction hDigit with hDigits | ⟨ds, e, es, rfl, hDigits, hDigit', -⟩
      · exact length_le_length_takeWhile hPrefix hDigits
      · obtain ⟨rest, rfl⟩ := hPrefix
        rw [fraction?_of_digits hDigits hDigit'] at hFraction
        cases hFraction
  | some found =>
      obtain ⟨fraction, rest⟩ := found
      have hSplit : cs.takeWhile Char.isDigit ++ '.' :: fraction ++ rest = cs := by
        rw [List.append_assoc, List.cons_append, ← fraction?_eq hFraction,
          List.takeWhile_append_dropWhile]
      obtain ⟨hSome, hDigits'⟩ := digits_of_fraction? hFraction
      refine ⟨.fraction (List.cons_ne_nil _ _) hWhole hSome hDigits',
        isLongest_cons hSplit fun ps hShape hPrefix => ?_⟩
      show ps.length ≤ (cs.takeWhile Char.isDigit ++ '.' :: fraction).length
      rw [List.length_append, List.length_cons]
      rcases hShape.digits_or_fraction hDigit with hDigits | ⟨ds, e, es, rfl, hDigits, hDigit', hMore⟩
      · have hLength := length_le_length_takeWhile hPrefix hDigits
        omega
      · obtain ⟨after, rfl⟩ := hPrefix
        rw [fraction?_of_digits hDigits hDigit'] at hFraction
        cases hFraction
        have hRun : ds.length ≤ ((ds ++ '.' :: e :: es ++ after).takeWhile Char.isDigit).length :=
          length_le_length_takeWhile ⟨'.' :: e :: es ++ after, by simp⟩ hDigits
        have hTail : es.length ≤ ((es ++ after).takeWhile Char.isDigit).length :=
          length_le_length_takeWhile (List.prefix_append es after) hMore
        simp only [List.length_append, List.length_cons] at hRun ⊢
        omega

/-! ## String literals -/

theorem leads_string (cs : List Char) : (string cs).1.Leads (string cs).2 := by
  unfold string
  cases hClose : closeString [] cs with
  | none =>
      refine ⟨rfl, cs, rfl, fun front back hSplit hUnits => ?_⟩
      have hFound := closeString_of_units hUnits [] back
      rw [← hSplit, hClose] at hFound
      cases hFound
  | some found =>
      obtain ⟨body, rest⟩ := found
      obtain ⟨read, hRead, rfl, hUnits⟩ := exists_units_of_closeString hClose
      obtain rfl : body = read := hRead
      dsimp only
      cases hValue : unescape body with
      | error e => exact ⟨body, rfl, hUnits, hasBadEscape_of_unescape hUnits hValue⟩
      | ok value =>
          have hSplit : body ++ ['"'] ++ rest = body ++ '"' :: rest := by simp
          refine ⟨.text hUnits (spells_of_unescape hValue),
            isLongest_cons hSplit fun ps hShape hPrefix => ?_⟩
          obtain ⟨body', rfl, hUnits'⟩ := hShape.exists_units
          obtain ⟨after, hAfter⟩ := hPrefix
          rw [List.append_assoc] at hAfter
          rw [hUnits'.eq_of_append_eq hUnits hAfter]

/-! ## Symbols and strays -/

theorem leads_symbol {c : Char} {cs : List Char} (hBlank : isBlank c = false) (hFeed : c ≠ '\n')
    (hQuote : c ≠ '"') (hDigit : c.isDigit = false) (hStart : isNameStart c = false)
    (hComment : ¬(c = '/' ∧ cs.head? = some '/')) : (symbol c cs).1.Leads (symbol c cs).2 := by
  unfold symbol
  split
  · next kind rest hEqual =>
      obtain ⟨hSymbol, hSpelling⟩ := spelling_of_symbolEqual? hEqual
      refine ⟨hSpelling ▸ Lexeme.symbol hSymbol, isLongest_cons rfl fun ps hShape hPrefix => ?_⟩
      rcases hShape.symbol_or_comment hStart hDigit hQuote with ⟨rfl, -⟩ | ⟨rfl, -⟩ | ⟨rfl, -⟩
      · exact Nat.zero_le _
      · exact Nat.le_refl _
      · cases hEqual
  · next hOther =>
      cases hSymbol : symbol? c with
      | some kind =>
          obtain ⟨hKind, hSpelling⟩ := spelling_of_symbol? hSymbol
          refine ⟨hSpelling ▸ Lexeme.symbol hKind,
            isLongest_cons (List.nil_append _) fun ps hShape hPrefix => ?_⟩
          rcases hShape.symbol_or_comment hStart hDigit hQuote with
            ⟨rfl, -⟩ | ⟨rfl, hEqual⟩ | ⟨rfl, hSlash⟩
          · exact Nat.le_refl _
          · obtain ⟨kind', hEqual⟩ := Option.ne_none_iff_exists'.1 hEqual
            obtain ⟨rest, rfl⟩ := hPrefix
            exact absurd rfl (hOther kind' rest hEqual)
          · refine absurd ⟨rfl, ?_⟩ hComment
            obtain ⟨rest, rfl⟩ := hPrefix
            rw [List.head?_append, hSlash]
            rfl
      | none =>
          refine ⟨hBlank, hFeed, hQuote, fun p hPattern hHead => ?_⟩
          obtain ⟨d, ps, rfl, hShape⟩ := hPattern.exists_shape
          obtain rfl : d = c := Option.some.inj hHead
          rcases hShape.symbol_or_comment hStart hDigit hQuote with
            ⟨-, hSome⟩ | ⟨-, hSome⟩ | ⟨rfl, -⟩
          · exact hSome hSymbol
          · obtain ⟨kind, hEqual⟩ := Option.ne_none_iff_exists'.1 hSome
            exact symbol?_ne_none_of_symbolEqual? hEqual hSymbol
          · cases hSymbol

/-! ## The first segment -/

theorem leads_comment {cs : List Char} (h : cs.head? = some '/') :
    (comment ('/' :: cs.takeWhile (!isLineEnd ·))).Leads (cs.dropWhile (!isLineEnd ·)) := by
  obtain ⟨rest, rfl⟩ : ∃ rest, cs = '/' :: rest := List.head?_eq_some_iff.1 h
  have hSlash : isLineEnd '/' = false := by decide
  simp only [List.takeWhile_cons, List.dropWhile_cons, hSlash, Bool.not_false, if_true]
  refine ⟨⟨_, rfl, fun c hc => ?_⟩, fun c hc => ?_⟩
  · simpa using List.mem_takeWhile_imp hc
  · simpa using eq_false_of_mem_head?_dropWhile hc

/-- The first segment of a source is what its name says, in front of the rest. -/
theorem leads_first (c : Char) (cs : List Char) : (first c cs).1.Leads (first c cs).2 := by
  unfold first
  by_cases hBlank : isBlank c = true
  · rw [if_pos hBlank]
    refine ⟨List.cons_ne_nil _ _, ?_, fun d hd => eq_false_of_mem_head?_dropWhile hd⟩
    exact List.forall_mem_cons.2 ⟨hBlank, fun d hd => List.mem_takeWhile_imp hd⟩
  by_cases hFeed : c = '\n'
  · rw [if_neg hBlank, if_pos hFeed]
    trivial
  by_cases hQuote : c = '"'
  · rw [if_neg hBlank, if_neg hFeed, if_pos hQuote]
    exact leads_string cs
  by_cases hDigit : c.isDigit = true
  · rw [if_neg hBlank, if_neg hFeed, if_neg hQuote, if_pos hDigit]
    exact leads_number cs hDigit
  by_cases hStart : isNameStart c = true
  · rw [if_neg hBlank, if_neg hFeed, if_neg hQuote, if_neg hDigit, if_pos hStart]
    exact leads_word cs hStart
  by_cases hComment : c = '/' ∧ cs.head? = some '/'
  · rw [if_neg hBlank, if_neg hFeed, if_neg hQuote, if_neg hDigit, if_neg hStart, if_pos hComment]
    obtain ⟨rfl, hSlash⟩ := hComment
    exact leads_comment hSlash
  · rw [if_neg hBlank, if_neg hFeed, if_neg hQuote, if_neg hDigit, if_neg hStart, if_neg hComment]
    exact leads_symbol (by simpa using hBlank) hFeed hQuote (by simpa using hDigit)
      (by simpa using hStart) hComment

end Segment

/-! ## All segments -/

/-- Whether each of the segments is what its name says in front of those that follow. -/
def Tiled : List Segment → Prop
  | [] => True
  | s :: rest => s.Leads (rest.flatMap Segment.text) ∧ Tiled rest

/-- Induction along a source, segment by segment. -/
theorem segments_induction {P : List Char → Prop} (nil : P [])
    (cons : ∀ c rest, P (Segment.first c rest).2 → P (c :: rest)) (cs : List Char) : P cs := by
  obtain ⟨n, hLength⟩ : ∃ n, cs.length = n := ⟨_, rfl⟩
  induction n using Nat.strongRecOn generalizing cs with
  | ind n ih =>
      cases cs with
      | nil => exact nil
      | cons c rest =>
          have hShorter := Segment.length_rest_first c rest
          rw [hLength] at hShorter
          exact cons c rest (ih _ hShorter _ rfl)

/-- The segments read so far only stand in front of the others. -/
theorem segmentsInto_eq (acc : List Segment) (cs : List Char) :
    segmentsInto acc cs = acc.reverse ++ segments cs := by
  induction cs using segments_induction generalizing acc with
  | nil => simp [segments, segmentsInto]
  | cons c rest ih =>
      rw [segments, segmentsInto, segmentsInto, ih, ih [_]]
      simp

@[simp]
theorem segments_nil : segments [] = [] := by
  rw [segments, segmentsInto]
  rfl

theorem segments_cons (c : Char) (rest : List Char) :
    segments (c :: rest) = (Segment.first c rest).1 :: segments (Segment.first c rest).2 := by
  rw [segments, segmentsInto, segmentsInto_eq]
  rfl

/-- The segments of a source make up the source. -/
@[simp]
theorem flatMap_text_segments (cs : List Char) : (segments cs).flatMap Segment.text = cs := by
  induction cs using segments_induction with
  | nil => simp
  | cons c rest ih => rw [segments_cons, List.flatMap_cons, ih, Segment.text_first]

/-- Every segment of a source is what its name says. -/
theorem tiled_segments (cs : List Char) : Tiled (segments cs) := by
  induction cs using segments_induction with
  | nil =>
      rw [segments_nil]
      trivial
  | cons c rest ih =>
      rw [segments_cons]
      refine ⟨?_, ih⟩
      rw [flatMap_text_segments]
      exact Segment.leads_first c rest

/-- The token segments of a source are lexemes. -/
theorem lexeme_of_mem {segs : List Segment} {k : Kind} {lexeme : List Char}
    {payload : Option Payload} (h : Tiled segs) (hMem : Segment.token k lexeme payload ∈ segs) :
    Lexeme k lexeme payload := by
  induction segs with
  | nil => cases hMem
  | cons s rest ih =>
      obtain ⟨hLeads, hRest⟩ := h
      rcases List.mem_cons.1 hMem with rfl | hMem
      · exact hLeads.1
      · exact ih hRest hMem

/-! ## Tokens and diagnostics -/

namespace Segment

/-- What a segment has of a token: all but the line. -/
def token? : Segment → Option (Kind × String × Option Payload)
  | .token kind lexeme payload => some (kind, String.ofList lexeme, payload)
  | _ => none

/-- The label of the mistake that a segment is. -/
def errorLabel? : Segment → Option String
  | .badEscape _ => some "E0005"
  | .openString _ => some "E0001"
  | .stray _ => some "E0002"
  | _ => none

end Segment

theorem placeInto_eq (acc : List Placed) (line : Nat) (segs : List Segment) :
    placeInto acc line segs = (acc.reverse ++ (place line segs).1, (place line segs).2) := by
  induction segs generalizing acc line with
  | nil => simp [place, placeInto]
  | cons s rest ih =>
      rw [place, placeInto, placeInto, ih, ih [_]]
      simp

theorem place_cons (line : Nat) (s : Segment) (segs : List Segment) :
    place line (s :: segs) =
      (⟨s, line⟩ :: (place (line + s.text.count '\n') segs).1,
        (place (line + s.text.count '\n') segs).2) := by
  rw [place, placeInto, placeInto_eq]
  rfl

/-- Placing segments neither drops nor moves any of them. -/
@[simp]
theorem map_segment_place (line : Nat) (segs : List Segment) :
    (place line segs).1.map Placed.segment = segs := by
  induction segs generalizing line with
  | nil => rfl
  | cons s rest ih => rw [place_cons, List.map_cons, ih]

/-- No segment starts above the line that the first one starts on. -/
theorem le_line_of_mem_place {line : Nat} {segs : List Segment} {p : Placed}
    (h : p ∈ (place line segs).1) : line ≤ p.line := by
  induction segs generalizing line with
  | nil => cases h
  | cons s rest ih =>
      rw [place_cons] at h
      rcases List.mem_cons.1 h with rfl | hMem
      · exact Nat.le_refl _
      · exact Nat.le_trans (Nat.le_add_right _ _) (ih hMem)

theorem tokens_lex (source : String) :
    (lex source).tokens = (place 1 (segments source.toList)).1.filterMap Placed.token? ++
      [Token.endOfFile (place 1 (segments source.toList)).2] :=
  rfl

theorem diagnostics_lex (source : String) :
    (lex source).diagnostics =
      (place 1 (segments source.toList)).1.filterMap Placed.diagnostic? :=
  rfl

theorem content_filterMap_token? (placed : List Placed) :
    (placed.filterMap Placed.token?).map Token.content =
      (placed.map Placed.segment).filterMap Segment.token? := by
  rw [List.map_filterMap, List.filterMap_map]
  refine congrArg (fun f => placed.filterMap f) (funext fun p => ?_)
  obtain ⟨s, line⟩ := p
  cases s <;> rfl

theorem label_filterMap_diagnostic? (placed : List Placed) :
    (placed.filterMap Placed.diagnostic?).map (fun d => d.code.label) =
      (placed.map Placed.segment).filterMap Segment.errorLabel? := by
  rw [List.map_filterMap, List.filterMap_map]
  refine congrArg (fun f => placed.filterMap f) (funext fun p => ?_)
  obtain ⟨s, line⟩ := p
  cases s <;> rfl

/-- The tokens of segments are lexemes. -/
theorem lexeme_of_mem_filterMap {cs : List Char} {line : Nat} {t : Token}
    (h : t ∈ (place line (segments cs)).1.filterMap Placed.token?) :
    Lexeme t.kind t.lexeme.toList t.payload := by
  obtain ⟨⟨s, line'⟩, hPlaced, hToken⟩ := List.mem_filterMap.1 h
  have hSegment : s ∈ segments cs := by
    have hMap := List.mem_map_of_mem (f := Placed.segment) hPlaced
    rwa [map_segment_place] at hMap
  cases s with
  | token kind lexeme payload =>
      cases hToken
      rw [String.toList_ofList]
      exact lexeme_of_mem (tiled_segments _) hSegment
  | _ => cases hToken

/-- Every token but the end mark comes from a segment. -/
theorem mem_filterMap_of_mem_lex {source : String} {t : Token} (h : t ∈ (lex source).tokens)
    (hEnd : t.kind ≠ .endOfFile) :
    t ∈ (place 1 (segments source.toList)).1.filterMap Placed.token? := by
  rw [tokens_lex] at h
  rcases List.mem_append.1 h with hMem | hMem
  · exact hMem
  · rw [List.mem_singleton.1 hMem] at hEnd
    exact absurd rfl hEnd

/--
**Tiling with longest matches.** Every source is made up of segments, each of which is
what its name says in front of those that follow. The tokens are the token segments in
order, and an end mark with no text behind them; the diagnostics are the segments that
are mistakes in order, one each, under the labels of their kinds. A token segment is a
lexeme of its kind and the longest pattern that stands at its place. Numbers carry a
number, strings a text and other tokens nothing, and what is written like a name has the
kind of the reserved word that it is, or else that of a name.
-/
theorem exists_tiled_lex (source : String) :
    ∃ segs : List Segment,
      String.ofList (segs.flatMap Segment.text) = source ∧ Tiled segs ∧
      (lex source).tokens.map Token.content =
        segs.filterMap Segment.token? ++ [(.endOfFile, "", none)] ∧
      (lex source).diagnostics.map (fun d => d.code.label) = segs.filterMap Segment.errorLabel? ∧
      ∀ kind lexeme payload, Segment.token kind lexeme payload ∈ segs →
        ((kind = .number ∧ ∃ x, payload = some (.number x)) ∨
          (kind = .text ∧ ∃ s, payload = some (.text s)) ∨
          kind ≠ .number ∧ kind ≠ .text ∧ payload = none) ∧
        ∀ c cs, lexeme = c :: cs → Segment.isNameStart c = true →
          (∀ k : Kind, k.isKeyword → (kind = k ↔ k.spelling.toList = lexeme)) ∧
          (kind = .identifier ↔ ∀ k : Kind, k.isKeyword → k.spelling.toList ≠ lexeme) := by
  have hTiled := tiled_segments source.toList
  refine ⟨segments source.toList, ?_, hTiled, ?_, ?_, ?_⟩
  · rw [flatMap_text_segments, String.ofList_toList]
  · rw [tokens_lex, List.map_append, content_filterMap_token?, map_segment_place]
    rfl
  · rw [diagnostics_lex, label_filterMap_diagnostic?, map_segment_place]
  · intro kind lexeme payload hMem
    have hLexeme := lexeme_of_mem hTiled hMem
    refine ⟨hLexeme.payload_cases, ?_⟩
    rintro c cs rfl hStart
    exact hLexeme.kind_eq_iff hStart

example : (segments "1. !=/ //c".toList).map Segment.text =
    [['1'], ['.'], [' '], ['!', '='], ['/'], [' '], ['/', '/', 'c']] := by
  decide +kernel

end Source

end TinyScript
