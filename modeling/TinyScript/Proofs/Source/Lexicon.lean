import Mathlib
import TinyScript.Source.Segment

/-!
# The lexical grammar

Which texts are tokens, said without a word about how a source is read. A symbol or a
reserved word is the spelling of its kind, a name is any other word, a number is digits
with or without a fraction, and a string literal is a row of units between two quotes.
`Lexeme` has one rule for each of these, with the payload that the token carries.

A text is a `Pattern` if it is a token or a comment. Many patterns begin with another
one, so a source can be cut in more than one way, and the rule that decides is that a
token is the longest pattern that stands there (`IsLongest`). What a pattern looks like
behind its first character depends on the class of that character, and the classes do
not overlap (`Shape`).

## Main results

* `closeString_of_units`, `exists_units_of_closeString`: the search for a closing quote
  finds exactly the rows of units, so no string literal begins another.
* `spells_of_unescape`, `unescape_of_spells`, `hasBadEscape_of_unescape`: what the body of
  a literal stands for, or the escape that is at fault.
* `Pattern.exists_shape`: the patterns that begin with a given character.
* `Lexeme.eq_spelling_of_isSymbol`, `Lexeme.kind_eq_iff`, `Lexeme.payload_cases`:
  what kind, text and payload of a token tell about each other.
-/

namespace TinyScript

open Token (Kind Payload)

/-- Whether a kind is punctuation or an operator. -/
def Token.Kind.isSymbol (k : Kind) : Bool :=
  k.index < Kind.identifier.index

namespace Source

open Segment (isBlank isLineEnd isNameStart isNamePart symbol? symbolEqual? closeString)

/-! ## Bodies of string literals -/

/-- The rows of units: characters other than quotes and backslashes, and backslashes
together with the character behind them, whichever it is. -/
inductive Units : List Char → Prop
  | nil : Units []
  | plain {c : Char} {cs : List Char} (hQuote : c ≠ '"') (hBackslash : c ≠ '\\') (h : Units cs) :
    Units (c :: cs)
  | pair {letter : Char} {cs : List Char} (h : Units cs) : Units ('\\' :: letter :: cs)

/-- `Spells raw value`: every escape in `raw` names a character, and `value` is `raw` with
the named characters in place of the escapes. -/
inductive Spells : List Char → List Char → Prop
  | nil : Spells [] []
  | plain {c : Char} {raw value : List Char} (h : c ≠ '\\') (rest : Spells raw value) :
    Spells (c :: raw) (c :: value)
  | escape {letter named : Char} {raw value : List Char} (h : escapeChar? letter = some named)
    (rest : Spells raw value) : Spells ('\\' :: letter :: raw) (named :: value)

/-- Whether one of the units is an escape that names nothing. -/
def HasBadEscape (raw : List Char) : Prop :=
  ∃ front letter back, raw = front ++ '\\' :: letter :: back ∧ Units front ∧
    escapeChar? letter = none

/-- The search for a closing quote stops behind a row of units, wherever it started. -/
theorem closeString_of_units {body : List Char} (h : Units body) (acc rest : List Char) :
    closeString acc (body ++ '"' :: rest) = some (acc.reverse ++ body, rest) := by
  induction h generalizing acc with
  | nil =>
      unfold closeString
      simp
  | plain hQuote hBackslash _ ih =>
      rw [List.cons_append]
      unfold closeString
      simp only [hQuote, hBackslash, if_false]
      rw [ih]
      simp
  | @pair letter cs _ ih =>
      have hQuote : ('\\' : Char) ≠ '"' := by decide
      rw [List.cons_append, List.cons_append]
      unfold closeString
      simp only [hQuote, if_false, if_true]
      rw [ih]
      simp

/-- Where a closing quote is found, a row of units ends. -/
theorem exists_units_of_closeString {acc cs body rest : List Char}
    (h : closeString acc cs = some (body, rest)) :
    ∃ read, body = acc.reverse ++ read ∧ cs = read ++ '"' :: rest ∧ Units read := by
  fun_induction closeString acc cs with
  | case1 => cases h
  | case2 acc rest' =>
      cases h
      exact ⟨[], by simp, rfl, .nil⟩
  | case3 => cases h
  | case4 acc d rest' _ ih =>
      obtain ⟨read, hBody, hRest, hUnits⟩ := ih h
      exact ⟨'\\' :: d :: read, by simp [hBody], by simp [hRest], .pair hUnits⟩
  | case5 acc c rest' hQuote hBackslash ih =>
      obtain ⟨read, hBody, hRest, hUnits⟩ := ih h
      exact ⟨c :: read, by simp [hBody], by simp [hRest], .plain hQuote hBackslash hUnits⟩

/-- Of two rows of units that are closed in the same text, neither is the longer one. -/
theorem Units.eq_of_append_eq {body body' rest rest' : List Char} (h : Units body)
    (h' : Units body') (hEq : body ++ '"' :: rest = body' ++ '"' :: rest') : body = body' := by
  have hFirst := closeString_of_units h [] rest
  have hSecond := closeString_of_units h' [] rest'
  rw [← hEq, hFirst] at hSecond
  simpa using congrArg (Option.map Prod.fst) hSecond

theorem spells_of_unescapeInto {acc raw value : List Char}
    (h : unescapeInto acc raw = .ok value) :
    ∃ read, value = acc.reverse ++ read ∧ Spells raw read := by
  fun_induction unescapeInto acc raw with
  | case1 acc =>
      cases h
      exact ⟨[], by simp, .nil⟩
  | case2 => cases h
  | case3 acc letter rest named hNamed ih =>
      obtain ⟨read, hValue, hSpells⟩ := ih h
      exact ⟨named :: read, by simp [hValue], .escape hNamed hSpells⟩
  | case4 => cases h
  | case5 acc c rest hBackslash ih =>
      obtain ⟨read, hValue, hSpells⟩ := ih h
      exact ⟨c :: read, by simp [hValue], .plain hBackslash hSpells⟩

/-- A body that is accepted stands for the text it is replaced by. -/
theorem spells_of_unescape {raw value : List Char} (h : unescape raw = .ok value) :
    Spells raw value := by
  obtain ⟨read, rfl, hSpells⟩ := spells_of_unescapeInto h
  exact hSpells

theorem unescapeInto_plain {c : Char} (h : c ≠ '\\') (acc rest : List Char) :
    unescapeInto acc (c :: rest) = unescapeInto (c :: acc) rest := by
  rw [unescapeInto.eq_def]
  exact if_neg h

theorem unescapeInto_escape {letter named : Char} (h : escapeChar? letter = some named)
    (acc rest : List Char) :
    unescapeInto acc ('\\' :: letter :: rest) = unescapeInto (named :: acc) rest := by
  rw [unescapeInto.eq_def]
  simp only [if_true, h]

/-- Reading goes on behind a part that stands for a text, with that text put down. -/
theorem unescapeInto_append {raw value : List Char} (h : Spells raw value) (acc rest : List Char) :
    unescapeInto acc (raw ++ rest) = unescapeInto (value.reverse ++ acc) rest := by
  induction h generalizing acc with
  | nil => rfl
  | plain hBackslash _ ih =>
      rw [List.cons_append, unescapeInto_plain hBackslash, ih]
      simp
  | escape hNamed _ ih =>
      rw [List.cons_append, List.cons_append, unescapeInto_escape hNamed, ih]
      simp

/-- A body that stands for a text is accepted, and replaced by it. -/
theorem unescape_of_spells {raw value : List Char} (h : Spells raw value) :
    unescape raw = .ok value := by
  have hRun := unescapeInto_append h [] []
  simpa [unescape, unescapeInto] using hRun

theorem hasBadEscape_of_unescapeInto {acc raw : List Char} {e : BadEscape} (hUnits : Units raw)
    (h : unescapeInto acc raw = .error e) : HasBadEscape raw := by
  fun_induction unescapeInto acc raw with
  | case1 => cases h
  | case2 =>
      -- A backslash at the very end is no unit.
      cases hUnits with
      | plain _ hBackslash _ => exact absurd rfl hBackslash
  | case3 acc letter rest named hNamed ih =>
      cases hUnits with
      | plain _ hBackslash _ => exact absurd rfl hBackslash
      | pair hRest =>
          obtain ⟨front, bad, back, hSplit, hFront, hBad⟩ := ih hRest h
          exact ⟨'\\' :: letter :: front, bad, back, by simp [hSplit], .pair hFront, hBad⟩
  | case4 acc letter rest hNone => exact ⟨[], letter, rest, rfl, .nil, hNone⟩
  | case5 acc c rest hBackslash ih =>
      cases hUnits with
      | plain hQuote _ hRest =>
          obtain ⟨front, bad, back, hSplit, hFront, hBad⟩ := ih hRest h
          exact ⟨c :: front, bad, back, by simp [hSplit], .plain hQuote hBackslash hFront, hBad⟩
      | pair => exact absurd rfl hBackslash

/-- A body that is refused has an escape that names nothing. -/
theorem hasBadEscape_of_unescape {raw : List Char} {e : BadEscape} (hUnits : Units raw)
    (h : unescape raw = .error e) : HasBadEscape raw :=
  hasBadEscape_of_unescapeInto hUnits h

/-! ## Lexemes and patterns -/

/-- `Lexeme kind text payload`: the text is a token of the kind, and stands for the payload. -/
inductive Lexeme : Kind → List Char → Option Payload → Prop
  | symbol {k : Kind} (h : k.isSymbol) : Lexeme k k.spelling.toList none
  | keyword {k : Kind} (h : k.isKeyword) : Lexeme k k.spelling.toList none
  | name {c : Char} {cs : List Char} (hStart : isNameStart c) (hParts : ∀ d ∈ cs, isNamePart d)
    (hFree : ∀ k : Kind, k.isKeyword → k.spelling.toList ≠ c :: cs) :
    Lexeme .identifier (c :: cs) none
  | whole {ds : List Char} (hSome : ds ≠ []) (hDigits : ∀ d ∈ ds, d.isDigit) :
    Lexeme .number ds (some (.number (Decimal.ofDigits ds []).toFloat))
  | fraction {ds es : List Char} (hSome : ds ≠ []) (hDigits : ∀ d ∈ ds, d.isDigit)
    (hSome' : es ≠ []) (hDigits' : ∀ d ∈ es, d.isDigit) :
    Lexeme .number (ds ++ '.' :: es) (some (.number (Decimal.ofDigits ds es).toFloat))
  | text {body value : List Char} (hUnits : Units body) (hSpells : Spells body value) :
    Lexeme .text ('"' :: (body ++ ['"'])) (some (.text (String.ofList value)))

/-- Two slashes and characters that end no line. -/
def IsComment (cs : List Char) : Prop :=
  ∃ body, cs = '/' :: '/' :: body ∧ ∀ c ∈ body, isLineEnd c = false

/-- The texts that are a token or a comment. -/
def Pattern (cs : List Char) : Prop :=
  (∃ k payload, Lexeme k cs payload) ∨ IsComment cs

/-- Whether no pattern that stands at the same place is longer than `text`. -/
def IsLongest (text rest : List Char) : Prop :=
  ∀ p, Pattern p → p <+: text ++ rest → p.length ≤ text.length

/-! ## Spellings -/

theorem spelling_of_symbol? {c : Char} {k : Kind} (h : symbol? c = some k) :
    k.isSymbol ∧ k.spelling.toList = [c] := by
  unfold symbol? at h
  split at h <;> cases h <;> exact ⟨rfl, rfl⟩

theorem spelling_of_symbolEqual? {c : Char} {k : Kind} (h : symbolEqual? c = some k) :
    k.isSymbol ∧ k.spelling.toList = [c, '='] := by
  unfold symbolEqual? at h
  split at h <;> cases h <;> exact ⟨rfl, rfl⟩

/-- A symbol is one character, or one character and an equals sign. -/
theorem exists_of_isSymbol {k : Kind} (h : k.isSymbol) :
    (∃ c, k.spelling.toList = [c] ∧ symbol? c = some k) ∨
      ∃ c, k.spelling.toList = [c, '='] ∧ symbolEqual? c = some k := by
  cases k
  case bangEqual => exact .inr ⟨'!', rfl, rfl⟩
  case equalEqual => exact .inr ⟨'=', rfl, rfl⟩
  case greaterEqual => exact .inr ⟨'>', rfl, rfl⟩
  case lessEqual => exact .inr ⟨'<', rfl, rfl⟩
  all_goals first | exact absurd h (by decide) | exact .inl ⟨_, rfl, rfl⟩

/-- What an equals sign may follow is a symbol by itself. -/
theorem symbol?_ne_none_of_symbolEqual? {c : Char} {k : Kind} (h : symbolEqual? c = some k) :
    symbol? c ≠ none := by
  unfold symbolEqual? at h
  split at h <;> cases h <;> decide

/-- Where a symbol can begin nothing else can. -/
theorem not_starts_of_symbol? {c : Char} {k : Kind} (h : symbol? c = some k) :
    isNameStart c = false ∧ c.isDigit = false ∧ c ≠ '"' := by
  unfold symbol? at h
  split at h <;> cases h <;> decide

theorem not_starts_of_symbolEqual? {c : Char} {k : Kind} (h : symbolEqual? c = some k) :
    isNameStart c = false ∧ c.isDigit = false ∧ c ≠ '"' := by
  obtain ⟨single, hSingle⟩ := Option.ne_none_iff_exists'.1 (symbol?_ne_none_of_symbolEqual? h)
  exact not_starts_of_symbol? hSingle

/-- A reserved word has the shape of a name. -/
theorem exists_of_isKeyword {k : Kind} (h : k.isKeyword) :
    ∃ c cs, k.spelling.toList = c :: cs ∧ isNameStart c = true ∧ ∀ d ∈ cs, isNamePart d = true := by
  cases k
  all_goals first | exact absurd h (by decide) | exact ⟨_, _, rfl, by decide, List.all_eq_true.1 (by decide)⟩

theorem keyword?_spelling {k : Kind} (h : k.isKeyword) : Kind.keyword? k.spelling = some k := by
  cases k
  all_goals first | exact absurd h (by decide) | rfl

/-- The look-up of reserved words finds exactly the kind that is spelled so. -/
theorem keyword?_eq_some_iff {s : String} {k : Kind} :
    Kind.keyword? s = some k ↔ k.isKeyword ∧ k.spelling = s := by
  constructor
  · intro h
    simpa using List.find?_some h
  · rintro ⟨hKeyword, rfl⟩
    exact keyword?_spelling hKeyword

/-- Different reserved words are spelled differently. -/
theorem spelling_inj {j k : Kind} (hj : j.isKeyword) (hk : k.isKeyword)
    (h : j.spelling.toList = k.spelling.toList) : j = k := by
  have hSpelling : j.spelling = k.spelling := String.toList_inj.1 h
  have hFound := keyword?_spelling hj
  rw [hSpelling, keyword?_spelling hk] at hFound
  exact (Option.some.inj hFound).symm

/-- Different symbols are spelled differently. -/
theorem spelling_inj_of_isSymbol {j k : Kind} (hj : j.isSymbol) (hk : k.isSymbol)
    (h : j.spelling = k.spelling) : j = k := by
  rcases exists_of_isSymbol hj with ⟨c, hText, hSymbol⟩ | ⟨c, hText, hSymbol⟩ <;>
    rcases exists_of_isSymbol hk with ⟨d, hText', hSymbol'⟩ | ⟨d, hText', hSymbol'⟩ <;>
    rw [h, hText'] at hText <;> cases hText
  · exact Option.some.inj (hSymbol.symm.trans hSymbol')
  · exact Option.some.inj (hSymbol.symm.trans hSymbol')

theorem isNamePart_of_isNameStart {c : Char} (h : isNameStart c = true) : isNamePart c = true := by
  simp only [isNameStart, isNamePart, Char.isAlphanum, Bool.or_eq_true] at *
  tauto

theorem not_isDigit_of_isNameStart {c : Char} (h : isNameStart c = true) : c.isDigit = false := by
  simp only [isNameStart, Char.isAlpha, Char.isUpper, Char.isLower, Char.isDigit,
    Bool.or_eq_true, Bool.and_eq_true, decide_eq_true_eq, beq_iff_eq, Bool.and_eq_false_iff,
    decide_eq_false_iff_not] at h ⊢
  rcases h with (⟨hLow, -⟩ | ⟨hLow, -⟩) | rfl
  · right
    intro hHigh
    exact absurd (UInt32.le_trans hLow hHigh) (by decide)
  · right
    intro hHigh
    exact absurd (UInt32.le_trans hLow hHigh) (by decide)
  · decide

/-! ## The shape of a pattern -/

/-- `Shape c cs`: what follows the first character `c` of a pattern is `cs`. -/
inductive Shape : Char → List Char → Prop
  | symbol {c : Char} {k : Kind} (h : symbol? c = some k) : Shape c []
  | symbolEqual {c : Char} {k : Kind} (h : symbolEqual? c = some k) : Shape c ['=']
  | word {c : Char} {cs : List Char} (hStart : isNameStart c = true)
    (hParts : ∀ d ∈ cs, isNamePart d = true) : Shape c cs
  | whole {c : Char} {ds : List Char} (hDigit : c.isDigit = true)
    (hDigits : ∀ d ∈ ds, d.isDigit = true) : Shape c ds
  | fraction {c e : Char} {ds es : List Char} (hDigit : c.isDigit = true)
    (hDigits : ∀ d ∈ ds, d.isDigit = true) (hDigit' : e.isDigit = true)
    (hDigits' : ∀ d ∈ es, d.isDigit = true) : Shape c (ds ++ '.' :: e :: es)
  | quoted {body : List Char} (h : Units body) : Shape '"' (body ++ ['"'])
  | comment {body : List Char} (h : ∀ c ∈ body, isLineEnd c = false) : Shape '/' ('/' :: body)

theorem Lexeme.exists_shape {k : Kind} {cs : List Char} {payload : Option Payload}
    (h : Lexeme k cs payload) : ∃ c ps, cs = c :: ps ∧ Shape c ps := by
  cases h with
  | symbol h =>
      rcases exists_of_isSymbol h with ⟨c, hText, hSymbol⟩ | ⟨c, hText, hSymbol⟩
      · exact ⟨c, [], hText, .symbol hSymbol⟩
      · exact ⟨c, ['='], hText, .symbolEqual hSymbol⟩
  | keyword h =>
      obtain ⟨c, ps, hText, hStart, hParts⟩ := exists_of_isKeyword h
      exact ⟨c, ps, hText, .word hStart hParts⟩
  | name hStart hParts => exact ⟨_, _, rfl, .word hStart hParts⟩
  | @whole ds hSome hDigits =>
      obtain ⟨c, ds, rfl⟩ := List.exists_cons_of_ne_nil hSome
      obtain ⟨hDigit, hDigits⟩ := List.forall_mem_cons.1 hDigits
      exact ⟨c, ds, rfl, .whole hDigit hDigits⟩
  | @fraction ds es hSome hDigits hSome' hDigits' =>
      obtain ⟨c, ds, rfl⟩ := List.exists_cons_of_ne_nil hSome
      obtain ⟨e, es, rfl⟩ := List.exists_cons_of_ne_nil hSome'
      obtain ⟨hDigit, hDigits⟩ := List.forall_mem_cons.1 hDigits
      obtain ⟨hDigit', hDigits'⟩ := List.forall_mem_cons.1 hDigits'
      exact ⟨c, _, rfl, .fraction hDigit hDigits hDigit' hDigits'⟩
  | text hUnits => exact ⟨_, _, rfl, .quoted hUnits⟩

theorem Pattern.exists_shape {cs : List Char} (h : Pattern cs) : ∃ c ps, cs = c :: ps ∧ Shape c ps := by
  rcases h with ⟨k, payload, hLexeme⟩ | ⟨body, rfl, hBody⟩
  · exact hLexeme.exists_shape
  · exact ⟨_, _, rfl, .comment hBody⟩

/-! ### Where the classes of first characters lead -/

namespace Shape

variable {c : Char} {ps : List Char}

/-- A pattern that begins like a name goes on like a name. -/
theorem forall_isNamePart (h : Shape c ps) (hStart : isNameStart c = true) :
    ∀ d ∈ ps, isNamePart d = true := by
  cases h with
  | symbol h => exact absurd hStart (by simp [(not_starts_of_symbol? h).1])
  | symbolEqual h => exact absurd hStart (by simp [(not_starts_of_symbolEqual? h).1])
  | word _ hParts => exact hParts
  | whole hDigit => exact absurd hDigit (by simp [not_isDigit_of_isNameStart hStart])
  | fraction hDigit => exact absurd hDigit (by simp [not_isDigit_of_isNameStart hStart])
  | quoted => exact absurd hStart (by decide)
  | comment => exact absurd hStart (by decide)

/-- A pattern that begins with a digit is a number. -/
theorem digits_or_fraction (h : Shape c ps) (hDigit : c.isDigit = true) :
    (∀ d ∈ ps, d.isDigit = true) ∨
      ∃ ds e es, ps = ds ++ '.' :: e :: es ∧ (∀ d ∈ ds, d.isDigit = true) ∧
        e.isDigit = true ∧ ∀ d ∈ es, d.isDigit = true := by
  cases h with
  | symbol h => exact absurd hDigit (by simp [(not_starts_of_symbol? h).2.1])
  | symbolEqual h => exact absurd hDigit (by simp [(not_starts_of_symbolEqual? h).2.1])
  | word hStart => exact absurd hDigit (by simp [not_isDigit_of_isNameStart hStart])
  | whole _ hDigits => exact .inl hDigits
  | fraction _ hDigits hDigit' hDigits' => exact .inr ⟨_, _, _, rfl, hDigits, hDigit', hDigits'⟩
  | quoted => exact absurd hDigit (by decide)
  | comment => exact absurd hDigit (by decide)

/-- A pattern that begins with a quote is a row of units and another quote. -/
theorem exists_units (h : Shape '"' ps) : ∃ body, ps = body ++ ['"'] ∧ Units body := by
  cases h with
  | symbol h => cases h
  | symbolEqual h => cases h
  | word hStart => exact absurd hStart (by decide)
  | whole hDigit => exact absurd hDigit (by decide)
  | fraction hDigit => exact absurd hDigit (by decide)
  | quoted hUnits => exact ⟨_, rfl, hUnits⟩

/-- Any other pattern is a symbol or a comment. -/
theorem symbol_or_comment (h : Shape c ps) (hStart : isNameStart c = false)
    (hDigit : c.isDigit = false) (hQuote : c ≠ '"') :
    (ps = [] ∧ symbol? c ≠ none) ∨ (ps = ['='] ∧ symbolEqual? c ≠ none) ∨
      c = '/' ∧ ps.head? = some '/' := by
  cases h with
  | symbol h => exact .inl ⟨rfl, by simp [h]⟩
  | symbolEqual h => exact .inr (.inl ⟨rfl, by simp [h]⟩)
  | word hName => exact absurd hName (by simp [hStart])
  | whole hNumber => exact absurd hNumber (by simp [hDigit])
  | fraction hNumber => exact absurd hNumber (by simp [hDigit])
  | quoted => exact absurd rfl hQuote
  | comment => exact .inr (.inr ⟨rfl, rfl⟩)

end Shape

/-! ## Kind, text and payload -/

/-- The text of a symbol is its spelling. -/
theorem Lexeme.eq_spelling_of_isSymbol {k : Kind} {cs : List Char} {payload : Option Payload}
    (h : Lexeme k cs payload) (hSymbol : k.isSymbol) : cs = k.spelling.toList := by
  cases h with
  | symbol => rfl
  | keyword => rfl
  | _ => exact absurd hSymbol (by decide)

/-- No text is the end of a source. -/
theorem Lexeme.kind_ne_endOfFile {k : Kind} {cs : List Char} {payload : Option Payload}
    (h : Lexeme k cs payload) : k ≠ .endOfFile := by
  rintro rfl
  cases h with
  | symbol hSymbol => exact absurd hSymbol (by decide)
  | keyword hWord => exact absurd hWord (by decide)

/-- Numbers carry a number, strings a text, and no other token carries anything. -/
theorem Lexeme.payload_cases {k : Kind} {cs : List Char} {payload : Option Payload}
    (h : Lexeme k cs payload) :
    (k = .number ∧ ∃ x, payload = some (.number x)) ∨
      (k = .text ∧ ∃ s, payload = some (.text s)) ∨
        k ≠ .number ∧ k ≠ .text ∧ payload = none := by
  cases h with
  | whole => exact .inl ⟨rfl, _, rfl⟩
  | fraction => exact .inl ⟨rfl, _, rfl⟩
  | text => exact .inr (.inl ⟨rfl, _, rfl⟩)
  | name => exact .inr (.inr ⟨by decide, by decide, rfl⟩)
  | symbol h => exact .inr (.inr ⟨ne_of_apply_ne Kind.isSymbol (by rw [h]; decide),
      ne_of_apply_ne Kind.isSymbol (by rw [h]; decide), rfl⟩)
  | keyword h => exact .inr (.inr ⟨ne_of_apply_ne Kind.isKeyword (by rw [h]; decide),
      ne_of_apply_ne Kind.isKeyword (by rw [h]; decide), rfl⟩)

/-- A name has the shape of one and is no reserved word. -/
theorem Lexeme.exists_name {cs : List Char} {payload : Option Payload}
    (h : Lexeme .identifier cs payload) :
    payload = none ∧ (∀ k : Kind, k.isKeyword → k.spelling.toList ≠ cs) ∧
      ∃ c ds, cs = c :: ds ∧ isNameStart c = true ∧ ∀ d ∈ ds, isNamePart d = true := by
  cases h with
  | symbol h => cases h
  | keyword h => cases h
  | name hStart hParts hFree => exact ⟨rfl, hFree, _, _, rfl, hStart, hParts⟩

/-- Only a reserved word or a name begins like a name. -/
theorem Lexeme.keyword_or_name {k : Kind} {c : Char} {cs : List Char} {payload : Option Payload}
    (h : Lexeme k (c :: cs) payload) (hStart : isNameStart c = true) :
    (k.isKeyword = true ∧ k.spelling.toList = c :: cs) ∨
      k = .identifier ∧ ∀ j : Kind, j.isKeyword → j.spelling.toList ≠ c :: cs := by
  generalize hText : c :: cs = text at h
  cases h with
  | symbol h =>
      rcases exists_of_isSymbol h with ⟨d, hSpelling, hSymbol⟩ | ⟨d, hSpelling, hSymbol⟩
      · rw [hSpelling] at hText
        cases hText
        exact absurd hStart (by simp [(not_starts_of_symbol? hSymbol).1])
      · rw [hSpelling] at hText
        cases hText
        exact absurd hStart (by simp [(not_starts_of_symbolEqual? hSymbol).1])
  | keyword h => exact .inl ⟨h, rfl⟩
  | name _ _ hFree => exact .inr ⟨rfl, hFree⟩
  | @whole ds hSome hDigits =>
      have hDigit : c.isDigit = true := hDigits c (by simp [← hText])
      exact absurd hDigit (by simp [not_isDigit_of_isNameStart hStart])
  | @fraction ds es hSome hDigits =>
      obtain ⟨d, ds, rfl⟩ := List.exists_cons_of_ne_nil hSome
      cases hText
      have hDigit : c.isDigit = true := hDigits c (by simp)
      exact absurd hDigit (by simp [not_isDigit_of_isNameStart hStart])
  | text =>
      cases hText
      exact absurd hStart (by decide)

/-- A word has the kind of a reserved word exactly if it is that reserved word, and is a
name if it is none of them. -/
theorem Lexeme.kind_eq_iff {k : Kind} {c : Char} {cs : List Char} {payload : Option Payload}
    (h : Lexeme k (c :: cs) payload) (hStart : isNameStart c = true) :
    (∀ j : Kind, j.isKeyword → (k = j ↔ j.spelling.toList = c :: cs)) ∧
      (k = .identifier ↔ ∀ j : Kind, j.isKeyword → j.spelling.toList ≠ c :: cs) := by
  rcases h.keyword_or_name hStart with ⟨hKeyword, hSpelling⟩ | ⟨rfl, hFree⟩
  · refine ⟨fun j hj => ⟨fun hEq => hEq ▸ hSpelling, fun hText => ?_⟩, ?_⟩
    · exact spelling_inj hKeyword hj (hSpelling.trans hText.symm)
    · constructor
      · rintro rfl
        cases hKeyword
      · intro hFree
        exact absurd hSpelling (hFree k hKeyword)
  · refine ⟨fun j hj => ⟨?_, fun hText => absurd hText (hFree j hj)⟩, fun _ => hFree, fun _ => rfl⟩
    rintro rfl
    cases hj

end Source

end TinyScript
