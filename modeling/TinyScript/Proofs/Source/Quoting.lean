import TinyScript.Proofs.Source.LineEnds

/-!
# Writing string literals

Any text can be written as a string literal: quotes, backslashes and the control characters
that have an escape are escaped, and all else stands for itself. A line feed may be written
in both ways, so a text with line feeds has several literals.

A literal is read twice. The first scan looks for the closing quote and passes over every
character behind a backslash; the second one puts named characters in place of escapes.
What is written is a row of units for the first scan and spells the text for the second,
so both agree on every text, whatever stands behind the literal.

## Main results

* `units_escape`, `spells_escape`: the two scans on a written text.
* `segments_quoted`: a literal in front of any source.
* `lex_quote_append`: its token, and the tokens of the source behind it.
-/

namespace TinyScript.Source

/-! ## Escaping -/

/-- How a character is written in a string literal. A line feed is escaped unless it is kept. -/
def escapeUnit (keep : Bool) (c : Char) : List Char :=
  match c with
  | '"' => ['\\', '"']
  | '\\' => ['\\', '\\']
  | '\x08' => ['\\', 'b']
  | '\x0c' => ['\\', 'f']
  | '\r' => ['\\', 'r']
  | '\t' => ['\\', 't']
  | '\n' => if keep then ['\n'] else ['\\', 'n']
  | c => [c]

/-- The body of a literal for a text. A line feed at position `i` is kept if `keep i`. -/
def escape (keep : Nat → Bool) : List Char → List Char
  | [] => []
  | c :: rest => escapeUnit (keep 0) c ++ escape (fun i => keep (i + 1)) rest

/-- How many line feeds of a text are kept. -/
def keptFeeds (keep : Nat → Bool) : List Char → Nat
  | [] => 0
  | c :: rest => (if c = '\n' ∧ keep 0 then 1 else 0) + keptFeeds (fun i => keep (i + 1)) rest

/-- A string literal for a text. -/
def quote (keep : Nat → Bool) (s : String) : String :=
  "\"" ++ String.ofList (escape keep s.toList) ++ "\""

/-- A character is written as itself, if it is neither a quote nor a backslash, or as an escape
that names it. -/
theorem escapeUnit_cases (keep : Bool) (c : Char) :
    (escapeUnit keep c = [c] ∧ c ≠ '"' ∧ c ≠ '\\') ∨
      ∃ letter, escapeUnit keep c = ['\\', letter] ∧ escapeChar? letter = some c := by
  unfold escapeUnit
  split
  · exact .inr ⟨_, rfl, rfl⟩
  · exact .inr ⟨_, rfl, rfl⟩
  · exact .inr ⟨_, rfl, rfl⟩
  · exact .inr ⟨_, rfl, rfl⟩
  · exact .inr ⟨_, rfl, rfl⟩
  · exact .inr ⟨_, rfl, rfl⟩
  · cases keep with
    | true => exact .inl ⟨rfl, by decide, by decide⟩
    | false => exact .inr ⟨_, rfl, rfl⟩
  · next hQuote hBackslash _ _ _ _ _ => exact .inl ⟨rfl, hQuote, hBackslash⟩

theorem count_escapeUnit (keep : Bool) (c : Char) :
    (escapeUnit keep c).count '\n' = if c = '\n' ∧ keep then 1 else 0 := by
  unfold escapeUnit
  split
  case h_7 => cases keep <;> rfl
  case h_8 hFeed =>
    rw [if_neg fun h => hFeed h.1]
    exact List.count_eq_zero_of_not_mem fun hMem => hFeed (List.mem_singleton.1 hMem).symm
  all_goals rfl

variable (keep : Nat → Bool)

/-- What is written is a row of units, so the closing quote is the one behind it. -/
theorem units_escape (s : List Char) : Units (escape keep s) := by
  induction s generalizing keep with
  | nil => exact .nil
  | cons c rest ih =>
      rw [escape]
      rcases escapeUnit_cases (keep 0) c with ⟨hPlain, hQuote, hBackslash⟩ | ⟨letter, hEscape, -⟩
      · rw [hPlain]
        exact .plain hQuote hBackslash (ih _)
      · rw [hEscape]
        exact .pair (ih _)

/-- What is written for a text stands for that text. -/
theorem spells_escape (s : List Char) : Spells (escape keep s) s := by
  induction s generalizing keep with
  | nil => exact .nil
  | cons c rest ih =>
      rw [escape]
      rcases escapeUnit_cases (keep 0) c with ⟨hPlain, -, hBackslash⟩ | ⟨letter, hEscape, hNamed⟩
      · rw [hPlain]
        exact .plain hBackslash (ih _)
      · rw [hEscape]
        exact .escape hNamed (ih _)

/-- The line feeds in a literal are those of the text that are kept. -/
theorem count_escape (s : List Char) : (escape keep s).count '\n' = keptFeeds keep s := by
  induction s generalizing keep with
  | nil => rfl
  | cons c rest ih => rw [escape, List.count_append, count_escapeUnit, ih, keptFeeds]

/-! ## Reading literals -/

/-- A body that spells a text, between quotes, is read as one token for that text. -/
theorem segments_quoted {body value : List Char} (hUnits : Units body) (hSpells : Spells body value)
    (rest : List Char) :
    segments ('"' :: (body ++ '"' :: rest)) =
      .token .text ('"' :: (body ++ ['"'])) (some (.text (String.ofList value))) ::
        segments rest := by
  have hFirst : Segment.first '"' (body ++ '"' :: rest) =
      (.token .text ('"' :: (body ++ ['"'])) (some (.text (String.ofList value))), rest) := by
    show Segment.string (body ++ '"' :: rest) = _
    rw [Segment.string, closeString_of_units hUnits [] rest]
    simp only [List.reverse_nil, List.nil_append, unescape_of_spells hSpells]
  rw [segments_cons, hFirst]

theorem toList_quote_append (s rest : String) :
    (quote keep s ++ rest).toList = '"' :: (escape keep s.toList ++ '"' :: rest.toList) := by
  simp [quote]

theorem ofList_quote (s : String) :
    String.ofList ('"' :: (escape keep s.toList ++ ['"'])) = quote keep s := by
  rw [← String.toList_inj]
  simp [quote]

/-- A literal and the source behind it, with their lines. -/
theorem count_quoted (cs : List Char) :
    ('"' :: (escape keep cs ++ ['"'])).count '\n' = keptFeeds keep cs := by
  rw [← count_escape]
  simp

theorem place_quote_append (s rest : String) :
    place 1 (segments (quote keep s ++ rest).toList) =
      (⟨.token .text ('"' :: (escape keep s.toList ++ ['"'])) (some (.text s)), 1⟩ ::
          (place 1 (segments rest.toList)).1.map (Placed.lower (keptFeeds keep s.toList)),
        (place 1 (segments rest.toList)).2 + keptFeeds keep s.toList) := by
  rw [toList_quote_append, segments_quoted (units_escape keep _) (spells_escape keep _), place_cons]
  simp only [Segment.text, count_quoted, place_add, String.ofList_toList]

/-- Where lines are not bounded, the source behind a literal is read as it is by itself, as many
lines further down as line feeds were kept in the literal. -/
theorem lex_quote_append (s rest : String) :
    (lex (quote keep s ++ rest)).tokens =
        ⟨.text, quote keep s, some (.text s), 1⟩ ::
          (lex rest).tokens.map (Token.mapLine (· + keptFeeds keep s.toList)) ∧
      (lex (quote keep s ++ rest)).diagnostics =
        (lex rest).diagnostics.map (Diagnostic.mapLine (· + keptFeeds keep s.toList)) := by
  constructor
  · rw [tokens_lex, tokens_lex, place_quote_append, List.map_append, ← filterMap_token?_lower]
    simp only [List.filterMap_cons, Placed.token?, Segment.tokenOn?, ofList_quote]
    rfl
  · rw [diagnostics_lex, diagnostics_lex, place_quote_append, ← filterMap_diagnostic?_lower]
    rfl

end TinyScript.Source
