import TinyScript.Proofs.Source.Numerals
import TinyScript.Proofs.Source.Quoting

/-!
# Tokens survive re-spacing

What stands between tokens does not matter, as long as something does. A source can be
taken apart into its tokens and put together again with other blanks, line feeds and
comments between them, and it is read as the same tokens.

Two facts carry this. Blanks, line feeds and comments in front of a source add no segment
that anything comes of, so `solids`, the segments that are left without them, stay as they
are. And a lexeme in front of a blank or a line feed is read as one token, whatever it was
next to in the source that it was taken from: none of the patterns that it could be the
beginning of goes on with such a character.

## Main results

* `IsTrivia.solids_append`: what is skipped.
* `Lexeme.solids_append`: a lexeme in front of a space.
* `lex_respaced`: all tokens of a source, with other gaps.
-/

namespace TinyScript.Source

open Token (Kind Payload)
open Segment (isBlank isLineEnd isNameStart isNamePart symbol? symbolEqual?)

variable {c : Char} {cs rest : List Char} {k : Kind} {payload : Option Payload}

/-! ## Gaps -/

/-- Characters that keep tokens apart: spaces, tabs, carriage returns and line feeds. -/
def isSpace (c : Char) : Bool :=
  isBlank c || c == '\n'

/-- Any mix of spaces and comments in which every comment is ended by a line feed. -/
inductive IsTrivia : List Char → Prop
  | nil : IsTrivia []
  | space {c : Char} {cs : List Char} (h : isSpace c = true) (rest : IsTrivia cs) :
    IsTrivia (c :: cs)
  | comment {body cs : List Char} (h : ∀ c ∈ body, isLineEnd c = false) (rest : IsTrivia cs) :
    IsTrivia ('/' :: '/' :: (body ++ '\n' :: cs))

/-- A text that stands for nothing. -/
structure Trivia where
  text : String
  isTrivia : IsTrivia text.toList

/-- Trivia that keeps what is before it apart from what is behind it. -/
structure Gap extends Trivia where
  exists_space : ∃ c ∈ text.toList.head?, isSpace c = true

/-- Tokens one after the other, with the gap `gap i` behind the token at position `i`. -/
def spread (gap : Nat → Gap) : List Token → String
  | [] => ""
  | t :: rest => t.lexeme ++ (gap 0).text ++ spread (fun i => gap (i + 1)) rest

/-- A source that is made of tokens, with trivia before the first one and gaps behind each. -/
def respaced (lead : Trivia) (gap : Nat → Gap) (tokens : List Token) : String :=
  lead.text ++ spread gap tokens

theorem eq_of_isSpace (h : isSpace c = true) : c = ' ' ∨ c = '\t' ∨ c = '\r' ∨ c = '\n' := by
  simpa [isSpace, isBlank, or_assoc] using h

/-- A space continues no word, no number and no symbol. -/
theorem not_continues_of_isSpace (h : isSpace c = true) :
    isNamePart c = false ∧ (c.isDigit = false ∧ c ≠ '.') ∧ c ≠ '=' ∧ c ≠ '/' := by
  rcases eq_of_isSpace h with rfl | rfl | rfl | rfl <;> decide

/-! ## What is skipped -/

namespace Segment

/-- Whether a segment is neither a token nor a mistake. -/
def isSilent : Segment → Bool
  | .blank _ => true
  | .lineFeed => true
  | .comment _ => true
  | _ => false

theorem token?_of_isSilent {s : Segment} (h : s.isSilent = true) : s.token? = none := by
  cases s with
  | token => cases h
  | _ => rfl

theorem errorLabel?_of_isSilent {s : Segment} (h : s.isSilent = true) : s.errorLabel? = none := by
  cases s with
  | badEscape => cases h
  | openString => cases h
  | stray => cases h
  | _ => rfl

end Segment

/-- The segments of a source that are tokens or mistakes. -/
def solids (cs : List Char) : List Segment :=
  (segments cs).filter fun s => !s.isSilent

/-- What is found in a segment is found in one of the solids. -/
theorem filterMap_solids {α : Type} {f : Segment → Option α}
    (h : ∀ s, s.isSilent = true → f s = none) (cs : List Char) :
    (solids cs).filterMap f = (segments cs).filterMap f := by
  rw [solids, List.filterMap_filter]
  refine congrArg (fun g => (segments cs).filterMap g) (funext fun s => ?_)
  cases hSilent : s.isSilent with
  | true => exact (h s hSilent).symm
  | false => rfl

/-- A blank takes all blanks behind it along. -/
theorem solids_blank_cons (h : isBlank c = true) (cs : List Char) :
    solids (c :: cs) = solids (cs.dropWhile isBlank) := by
  rw [solids, segments_cons, Segment.first, if_pos h]
  rfl

theorem solids_lineFeed_cons (cs : List Char) : solids ('\n' :: cs) = solids cs := by
  rw [solids, segments_cons]
  rfl

theorem solids_space_cons (h : isSpace c = true) (cs : List Char) :
    solids (c :: cs) = solids cs := by
  by_cases hBlank : isBlank c = true
  · rw [solids_blank_cons hBlank]
    -- What follows is skipped by the same blank or, if it is none, starts a segment of its own.
    cases cs with
    | nil => rfl
    | cons d ds =>
        by_cases hNext : isBlank d = true
        · rw [List.dropWhile_cons_of_pos hNext, solids_blank_cons hNext]
        · rw [List.dropWhile_cons_of_neg hNext]
  · have hFeed : c = '\n' := by simpa [isSpace, hBlank] using h
    rw [hFeed, solids_lineFeed_cons]

theorem solids_comment {body : List Char} (h : ∀ c ∈ body, isLineEnd c = false) (cs : List Char) :
    solids ('/' :: '/' :: (body ++ '\n' :: cs)) = solids cs := by
  have hBody : ∀ c ∈ '/' :: body, (!isLineEnd c) = true := by
    refine List.forall_mem_cons.2 ⟨by decide, fun c hc => ?_⟩
    rw [h c hc]
    rfl
  have hFeed : ∀ c ∈ ('\n' :: cs).head?, (!isLineEnd c) = false := by
    simp [isLineEnd]
  have hFirst : Segment.first '/' ('/' :: body ++ '\n' :: cs) =
      (.comment ('/' :: '/' :: body), '\n' :: cs) := by
    obtain ⟨hTake, hDrop⟩ := Text.takeWhile_append_of_head? hBody hFeed
    rw [Segment.first, hTake, hDrop]
    rfl
  rw [← List.cons_append, solids, segments_cons, hFirst]
  exact solids_lineFeed_cons cs

/-- **Trivia is skipped.** It adds nothing to what is found in a source. -/
theorem IsTrivia.solids_append (h : IsTrivia cs) (rest : List Char) :
    solids (cs ++ rest) = solids rest := by
  induction h with
  | nil => rfl
  | space hSpace _ ih => rw [List.cons_append, solids_space_cons hSpace, ih]
  | comment hBody _ ih =>
      rw [List.cons_append, List.cons_append, List.append_assoc, List.cons_append,
        solids_comment hBody, ih]

/-! ## Lexemes -/

namespace Segment

theorem first_of_isNameStart (h : isNameStart c = true) (cs : List Char) : first c cs = word c cs := by
  have hOther : ∀ d : Char, isNameStart d = false → c ≠ d := by
    rintro d hd rfl
    rw [h] at hd
    cases hd
  have hBlank : isBlank c = false := by
    simp [isBlank, hOther ' ' rfl, hOther '\t' rfl, hOther '\r' rfl]
  rw [first, hBlank, if_neg Bool.false_ne_true, if_neg (hOther '\n' rfl), if_neg (hOther '"' rfl),
    not_isDigit_of_isNameStart h, if_neg Bool.false_ne_true, if_pos h]

/-- A character that is a symbol starts nothing but a symbol or a comment. -/
theorem first_of_symbol? (h : symbol? c = some k) (hSlash : ¬(c = '/' ∧ cs.head? = some '/')) :
    first c cs = symbol c cs := by
  obtain ⟨hStart, hDigit, hQuote⟩ := not_starts_of_symbol? h
  have hBlank : isBlank c = false ∧ c ≠ '\n' := by
    unfold symbol? at h
    split at h <;> cases h <;> decide
  rw [first, hBlank.1, if_neg Bool.false_ne_true, if_neg hBlank.2, if_neg hQuote, hDigit,
    if_neg Bool.false_ne_true, hStart, if_neg Bool.false_ne_true, if_neg hSlash]

theorem word_of_isNamePart {ds : List Char} (hParts : ∀ d ∈ ds, isNamePart d = true)
    (hRest : ∀ d ∈ rest.head?, isNamePart d = false) :
    word c (ds ++ rest) =
      (.token ((Kind.keyword? (String.ofList (c :: ds))).getD .identifier) (c :: ds) none, rest) := by
  obtain ⟨hTake, hDrop⟩ := Text.takeWhile_append_of_head? hParts hRest
  rw [word, hTake, hDrop]

end Segment

theorem segments_word {ds : List Char} (hStart : isNameStart c = true)
    (hParts : ∀ d ∈ ds, isNamePart d = true) (hRest : ∀ d ∈ rest.head?, isNamePart d = false)
    (hKind : (Kind.keyword? (String.ofList (c :: ds))).getD .identifier = k) :
    segments (c :: ds ++ rest) = .token k (c :: ds) none :: segments rest := by
  rw [List.cons_append, segments_cons, Segment.first_of_isNameStart hStart,
    Segment.word_of_isNamePart hParts hRest, hKind]

/-- A symbol is read as itself in front of anything but an equals sign or a slash. -/
theorem segments_symbol (h : k.isSymbol) (hRest : ∀ d ∈ rest.head?, d ≠ '=' ∧ d ≠ '/') :
    segments (k.spelling.toList ++ rest) = .token k k.spelling.toList none :: segments rest := by
  rcases exists_of_isSymbol h with ⟨c, hText, hSymbol⟩ | ⟨c, hText, hSymbol⟩
  · have hSlash : ¬(c = '/' ∧ rest.head? = some '/') := fun hBoth => (hRest '/' hBoth.2).2 rfl
    have hSingle : Segment.symbol c rest = (.token k [c] none, rest) := by
      unfold Segment.symbol
      split
      · exact absurd rfl (hRest '=' rfl).1
      · rw [hSymbol]
    rw [hText, List.singleton_append, segments_cons, Segment.first_of_symbol? hSymbol hSlash, hSingle]
  · obtain ⟨single, hSingle⟩ := Option.ne_none_iff_exists'.1 (symbol?_ne_none_of_symbolEqual? hSymbol)
    have hSlash : ¬(c = '/' ∧ ('=' :: rest).head? = some '/') := by simp
    have hDouble : Segment.symbol c ('=' :: rest) = (.token k [c, '='] none, rest) := by
      unfold Segment.symbol
      rw [hSymbol]
      rfl
    rw [hText, List.cons_append, List.singleton_append, segments_cons,
      Segment.first_of_symbol? hSingle hSlash, hDouble]

/-- **A lexeme in front of a space** is read as one token, of its kind and with its payload. -/
theorem Lexeme.segments_append (h : Lexeme k cs payload) (hRest : ∀ d ∈ rest.head?, isSpace d = true) :
    segments (cs ++ rest) = .token k cs payload :: segments rest := by
  have hPart : ∀ d ∈ rest.head?, isNamePart d = false :=
    fun d hd => (not_continues_of_isSpace (hRest d hd)).1
  have hDigit : ∀ d ∈ rest.head?, d.isDigit = false ∧ d ≠ '.' :=
    fun d hd => (not_continues_of_isSpace (hRest d hd)).2.1
  have hSign : ∀ d ∈ rest.head?, d ≠ '=' ∧ d ≠ '/' :=
    fun d hd => (not_continues_of_isSpace (hRest d hd)).2.2
  cases h with
  | symbol hSymbol => exact segments_symbol hSymbol hSign
  | keyword hWord =>
      obtain ⟨c, ds, hText, hStart, hParts⟩ := exists_of_isKeyword hWord
      rw [hText]
      refine segments_word hStart hParts hPart ?_
      rw [← hText, String.ofList_toList, keyword?_spelling hWord]
      rfl
  | @name c ds hStart hParts hFree =>
      refine segments_word hStart hParts hPart ?_
      cases hKeyword : Kind.keyword? (String.ofList (c :: ds)) with
      | none => rfl
      | some j =>
          obtain ⟨hWord, hSpelling⟩ := keyword?_eq_some_iff.1 hKeyword
          exact absurd (by rw [hSpelling, String.toList_ofList]) (hFree j hWord)
  | whole hSome hDigits => exact segments_number (.whole hSome hDigits) hDigit
  | fraction hSome hDigits hSome' hDigits' =>
      exact segments_number (.fraction hSome hDigits hSome' hDigits') hDigit
  | @text body value hUnits hSpells =>
      have hQuoted := segments_quoted hUnits hSpells rest
      simpa using hQuoted

theorem Lexeme.solids_append (h : Lexeme k cs payload) (hRest : ∀ d ∈ rest.head?, isSpace d = true) :
    solids (cs ++ rest) = .token k cs payload :: solids rest := by
  rw [solids, h.segments_append hRest]
  rfl

/-! ## Sources -/

theorem Gap.isSpace_of_mem_head? (gap : Gap) (rest : List Char) :
    ∀ d ∈ (gap.text.toList ++ rest).head?, isSpace d = true := by
  obtain ⟨c, hc, hSpace⟩ := gap.exists_space
  intro d hd
  rw [List.head?_append, Option.mem_def.1 hc] at hd
  cases hd
  exact hSpace

/-- Lexemes with gaps between them are read one by one. -/
theorem solids_spread {tokens : List Token} (gap : Nat → Gap)
    (h : ∀ t ∈ tokens, Lexeme t.kind t.lexeme.toList t.payload) :
    solids (spread gap tokens).toList =
      tokens.map fun t => .token t.kind t.lexeme.toList t.payload := by
  induction tokens generalizing gap with
  | nil => rw [spread, String.toList_empty, solids, segments_nil, List.filter_nil, List.map_nil]
  | cons t rest ih =>
      obtain ⟨hFirst, hRest⟩ := List.forall_mem_cons.1 h
      rw [spread, String.toList_append, String.toList_append, List.append_assoc,
        hFirst.solids_append ((gap 0).isSpace_of_mem_head? _), (gap 0).isTrivia.solids_append,
        ih _ hRest, List.map_cons]

theorem solids_respaced {tokens : List Token} (lead : Trivia) (gap : Nat → Gap)
    (h : ∀ t ∈ tokens, Lexeme t.kind t.lexeme.toList t.payload) :
    solids (respaced lead gap tokens).toList =
      tokens.map fun t => .token t.kind t.lexeme.toList t.payload := by
  rw [respaced, String.toList_append, lead.isTrivia.solids_append, solids_spread gap h]

theorem content_tokens_lex (source : String) :
    (lex source).tokens.map Token.content =
      (solids source.toList).filterMap Segment.token? ++ [(.endOfFile, "", none)] := by
  rw [filterMap_solids fun _ => Segment.token?_of_isSilent, tokens_lex, List.map_append,
    content_filterMap_token?, map_segment_place]
  rfl

theorem label_diagnostics_lex (source : String) :
    (lex source).diagnostics.map (fun d => d.code.label) =
      (solids source.toList).filterMap Segment.errorLabel? := by
  rw [filterMap_solids fun _ => Segment.errorLabel?_of_isSilent, diagnostics_lex,
    label_filterMap_diagnostic?, map_segment_place]

/--
**Tokens survive re-spacing.** Take the tokens of any source, with or without mistakes, but
for its end mark, and make a new source of them: any trivia in front, and behind each token
a gap that starts with a space. The new source is read without a mistake as tokens of the
same kinds, texts and payloads in the same order, and the end mark.
-/
theorem lex_respaced (source : String) (lead : Trivia) (gap : Nat → Gap) :
    let words := (lex source).tokens.filter (·.kind != .endOfFile)
    (lex (respaced lead gap words)).diagnostics = [] ∧
      (lex (respaced lead gap words)).tokens.map Token.content =
        words.map Token.content ++ [(.endOfFile, "", none)] := by
  intro words
  have hLexeme : ∀ t ∈ words, Lexeme t.kind t.lexeme.toList t.payload := by
    intro t ht
    obtain ⟨hMem, hKind⟩ := List.mem_filter.1 ht
    exact lexeme_of_mem_filterMap (mem_filterMap_of_mem_lex hMem (by simpa using hKind))
  have hSolids := solids_respaced lead gap hLexeme
  constructor
  · have hLabels := label_diagnostics_lex (respaced lead gap words)
    rw [hSolids, List.filterMap_map] at hLabels
    exact List.map_eq_nil_iff.1 (hLabels.trans (List.filterMap_eq_nil_iff.2 fun _ _ => rfl))
  · rw [content_tokens_lex, hSolids, List.filterMap_map, ← List.filterMap_eq_map]
    refine congrArg (fun f => words.filterMap f ++ _) (funext fun t => ?_)
    simp [Segment.token?, Token.content]

example :
    let lead : Trivia := ⟨"//\n", @IsTrivia.comment [] [] (by simp) .nil⟩
    let gap : Gap := ⟨⟨"\t\n", .space rfl (.space rfl .nil)⟩, '\t', rfl, rfl⟩
    respaced lead (fun _ => gap) ((lex "a!=@/1.").tokens.filter (·.kind != .endOfFile)) =
      "//\na\t\n!=\t\n/\t\n1\t\n.\t\n" := by
  decide +kernel

end TinyScript.Source
