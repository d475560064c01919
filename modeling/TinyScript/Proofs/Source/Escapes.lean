import TinyScript.Proofs.Source.Lexicon

/-!
# Two scans of a string literal

A string literal is scanned for its closing quote first, and the text between the quotes
is scanned again for what it stands for. Both scans pair a backslash with the character
behind it, from left to right, and it is on the pairs that they have to agree: the first
scan must not take a paired quote for the closing one, and the second must not meet a
backslash that the first one has left alone.

Which prefixes could be the body is said without a scan (`Delimits`), and so is where a
text breaks (`Breaks`). A body may hold a quote only if it is paired, but that is not
part of `Delimits`: it follows since the scan stops at the shortest prefix.

## Main results

* `closeString_eq_some_iff`, `closeString_eq_none_iff`: the first scan finds the shortest
  prefix that could be the body, and fails only if there is none.
* `Paired.unescape_ne`: the second scan of such a body never ends in a lone backslash.
* `unescape_eq_ok_iff`, `unescape_eq_error_iff`: what the second scan gives for any text.
-/

namespace TinyScript.Source

open Segment (closeString)

variable {cs raw value body rest front back : List Char}

/-! ## Pairs -/

/-- Texts in which every backslash is paired with the character behind it, whichever it is. -/
inductive Paired : List Char → Prop
  | nil : Paired []
  | plain {c : Char} {cs : List Char} (h : c ≠ '\\') (rest : Paired cs) : Paired (c :: cs)
  | pair {letter : Char} {cs : List Char} (rest : Paired cs) : Paired ('\\' :: letter :: cs)

theorem paired_plain_iff {c : Char} (h : c ≠ '\\') : Paired (c :: cs) ↔ Paired cs := by
  constructor
  · rintro (_ | ⟨-, hRest⟩ | _)
    · exact hRest
    · exact absurd rfl h
  · exact .plain h

theorem paired_pair_iff {letter : Char} : Paired ('\\' :: letter :: cs) ↔ Paired cs := by
  constructor
  · rintro (_ | ⟨hBackslash, -⟩ | hRest)
    · exact absurd rfl hBackslash
    · exact hRest
  · exact .pair

theorem Units.paired (h : Units cs) : Paired cs := by
  induction h with
  | nil => exact .nil
  | plain _ hBackslash _ ih => exact .plain hBackslash ih
  | pair _ ih => exact .pair ih

/-- Behind a text whose escapes all name characters, a last backslash has nothing to pair with. -/
theorem Spells.not_paired_append (h : Spells front value) : ¬ Paired (front ++ ['\\']) := by
  induction h with
  | nil =>
      rintro (_ | ⟨hBackslash, -⟩)
      exact hBackslash rfl
  | plain hBackslash _ ih => rwa [List.cons_append, paired_plain_iff hBackslash]
  | escape _ _ ih => rwa [List.cons_append, List.cons_append, paired_pair_iff]

/-! ## The closing quote -/

/-- `Delimits cs body rest`: a quote divides `cs` into `body`, in which every backslash is
paired, and `rest`. -/
structure Delimits (cs body rest : List Char) : Prop where
  split : cs = body ++ '"' :: rest
  paired : Paired body

/-- In front of a quote behind paired backslashes there is the end of a row of units, there or
further to the front. -/
theorem Paired.exists_units (h : Paired front) (back : List Char) :
    ∃ body rest, front ++ '"' :: back = body ++ '"' :: rest ∧ Units body ∧
      body.length ≤ front.length := by
  induction h with
  | nil => exact ⟨[], back, rfl, .nil, Nat.le_refl _⟩
  | @plain c cs hBackslash _ ih =>
      by_cases hQuote : c = '"'
      · exact ⟨[], cs ++ '"' :: back, by rw [hQuote]; rfl, .nil, Nat.zero_le _⟩
      · obtain ⟨body, rest, hSplit, hUnits, hLength⟩ := ih
        refine ⟨c :: body, rest, ?_, .plain hQuote hBackslash hUnits, ?_⟩
        · rw [List.cons_append, hSplit, List.cons_append]
        · exact Nat.succ_le_succ hLength
  | @pair letter cs _ ih =>
      obtain ⟨body, rest, hSplit, hUnits, hLength⟩ := ih
      refine ⟨'\\' :: letter :: body, rest, ?_, .pair hUnits, ?_⟩
      · rw [List.cons_append, List.cons_append, hSplit, List.cons_append, List.cons_append]
      · exact Nat.succ_le_succ (Nat.succ_le_succ hLength)

theorem delimits_of_closeString (h : closeString [] cs = some (body, rest)) :
    Delimits cs body rest := by
  obtain ⟨read, rfl, hSplit, hUnits⟩ := exists_units_of_closeString h
  exact ⟨hSplit, hUnits.paired⟩

/-- Where a body is possible one is found, and none that is longer. -/
theorem Delimits.exists_closeString (h : Delimits cs front back) :
    ∃ body rest, closeString [] cs = some (body, rest) ∧ body.length ≤ front.length := by
  obtain ⟨body, rest, hSplit, hUnits, hLength⟩ := h.paired.exists_units back
  refine ⟨body, rest, ?_, hLength⟩
  rw [h.split, hSplit, closeString_of_units hUnits [] rest]
  rfl

/-- A body is determined by its length. -/
theorem Delimits.eq_of_length_eq (h : Delimits cs body rest) (h' : Delimits cs front back)
    (hLength : body.length = front.length) : body = front ∧ rest = back := by
  have hSplit : body ++ '"' :: rest = front ++ '"' :: back := by
    rw [← h.split, ← h'.split]
  obtain ⟨hBody, hRest⟩ := List.append_inj hSplit hLength
  exact ⟨hBody, List.tail_eq_of_cons_eq hRest⟩

/-- The body that is found is the shortest one possible. -/
theorem closeString_eq_some_iff :
    closeString [] cs = some (body, rest) ↔ Delimits cs body rest ∧
      ∀ front back, Delimits cs front back → body.length ≤ front.length := by
  constructor
  · intro h
    refine ⟨delimits_of_closeString h, fun front back hOther => ?_⟩
    obtain ⟨found, left, hFound, hLength⟩ := hOther.exists_closeString
    rw [h] at hFound
    cases hFound
    exact hLength
  · rintro ⟨hBody, hShortest⟩
    obtain ⟨found, left, hFound, hLength⟩ := hBody.exists_closeString
    have hDelimits := delimits_of_closeString hFound
    have hEq : body.length = found.length :=
      Nat.le_antisymm (hShortest found left hDelimits) hLength
    obtain ⟨rfl, rfl⟩ := hBody.eq_of_length_eq hDelimits hEq
    exact hFound

/-- A literal stays open if no body is possible. -/
theorem closeString_eq_none_iff :
    closeString [] cs = none ↔ ∀ body rest, ¬ Delimits cs body rest := by
  constructor
  · intro h body rest hBody
    obtain ⟨found, left, hFound, -⟩ := hBody.exists_closeString
    rw [h] at hFound
    cases hFound
  · intro h
    cases hFound : closeString [] cs with
    | none => rfl
    | some found => exact absurd (delimits_of_closeString hFound) (h found.1 found.2)

/-! ## Escapes -/

/-- The letters that may stand behind a backslash, with the characters they name. -/
def escapes : List (Char × Char) :=
  [('"', '"'), ('\\', '\\'), ('b', '\x08'), ('f', '\x0c'), ('n', '\n'), ('r', '\r'), ('t', '\t')]

theorem escapeChar?_eq_some_iff (letter named : Char) :
    escapeChar? letter = some named ↔ (letter, named) ∈ escapes := by
  constructor
  · intro h
    unfold escapeChar? at h
    split at h <;> cases h <;> decide
  · intro h
    simp only [escapes, List.mem_cons, Prod.mk.injEq, List.not_mem_nil, or_false] at h
    rcases h with ⟨rfl, rfl⟩ | ⟨rfl, rfl⟩ | ⟨rfl, rfl⟩ | ⟨rfl, rfl⟩ | ⟨rfl, rfl⟩ | ⟨rfl, rfl⟩ |
      ⟨rfl, rfl⟩ <;> rfl

theorem escapeChar?_eq_none_iff (letter : Char) :
    escapeChar? letter = none ↔ ∀ named, (letter, named) ∉ escapes := by
  rw [Option.eq_none_iff_forall_ne_some]
  simp only [ne_eq, escapeChar?_eq_some_iff]

/-- `Breaks raw found`: behind escapes that all name characters, `raw` has one that does not. Either
the letter `found` names nothing, or there is no letter and the text ends. -/
inductive Breaks : List Char → Option Char → Prop
  | letter {front value back : List Char} {letter : Char} (h : Spells front value)
    (hLetter : ∀ named, (letter, named) ∉ escapes) :
    Breaks (front ++ '\\' :: letter :: back) (some letter)
  | trailing {front value : List Char} (h : Spells front value) : Breaks (front ++ ['\\']) none

theorem Breaks.plain {c : Char} {found : Option Char} (hBackslash : c ≠ '\\')
    (h : Breaks raw found) : Breaks (c :: raw) found := by
  cases h with
  | letter hFront hLetter => exact .letter (.plain hBackslash hFront) hLetter
  | trailing hFront => exact .trailing (.plain hBackslash hFront)

theorem Breaks.escape {letter named : Char} {found : Option Char}
    (hNamed : escapeChar? letter = some named) (h : Breaks raw found) :
    Breaks ('\\' :: letter :: raw) found := by
  cases h with
  | letter hFront hLetter => exact .letter (.escape hNamed hFront) hLetter
  | trailing hFront => exact .trailing (.escape hNamed hFront)

theorem breaks_of_unescapeInto {acc : List Char} {e : BadEscape}
    (h : unescapeInto acc raw = .error e) : Breaks raw e.found := by
  fun_induction unescapeInto acc raw with
  | case1 => cases h
  | case2 acc =>
      cases h
      exact .trailing .nil
  | case3 acc letter rest named hNamed ih => exact .escape hNamed (ih h)
  | case4 acc letter rest hNone =>
      cases h
      exact .letter .nil ((escapeChar?_eq_none_iff letter).1 hNone)
  | case5 acc c rest hBackslash ih => exact .plain hBackslash (ih h)

theorem unescape_eq_ok_iff : unescape raw = .ok value ↔ Spells raw value :=
  ⟨spells_of_unescape, unescape_of_spells⟩

/-- A text is refused where it breaks, with the letter that stands there. -/
theorem unescape_eq_error_iff {found : Option Char} :
    unescape raw = .error ⟨found⟩ ↔ Breaks raw found := by
  constructor
  · exact fun h => breaks_of_unescapeInto h
  · intro h
    cases h with
    | letter hFront hLetter =>
        rw [unescape, unescapeInto_append hFront, unescapeInto.eq_def]
        simp only [if_true, (escapeChar?_eq_none_iff _).2 hLetter]
    | trailing hFront =>
        rw [unescape, unescapeInto_append hFront, unescapeInto.eq_def]
        simp only [if_true]

/-- A text in which every backslash is paired does not end in a lone one. -/
theorem Paired.unescape_ne (h : Paired raw) : unescape raw ≠ .error ⟨none⟩ := by
  intro hError
  cases unescape_eq_error_iff.1 hError with
  | trailing hFront => exact hFront.not_paired_append h

/--
**The two scans of a string literal agree.** Behind an opening quote, the first scan finds
the shortest prefix in front of a quote in which every backslash is paired, and fails if
and only if there is none. The second scan never finds a lone backslash at the end of
that prefix. It accepts a text if and only if the text is a row of plain characters and of
backslashes with one of the seven escape letters, and gives what these stand for. It
refuses any other text with the first paired letter that is none of the seven, or with
no letter if all pairs are fine and a lone backslash comes last.
-/
theorem string_scans_agree (cs raw : List Char) :
    (∀ body rest, closeString [] cs = some (body, rest) ↔ Delimits cs body rest ∧
      ∀ front back, Delimits cs front back → body.length ≤ front.length) ∧
    (closeString [] cs = none ↔ ∀ body rest, ¬ Delimits cs body rest) ∧
    (∀ body rest, closeString [] cs = some (body, rest) → unescape body ≠ .error ⟨none⟩) ∧
    (∀ letter named, escapeChar? letter = some named ↔ (letter, named) ∈ escapes) ∧
    (∀ value, unescape raw = .ok value ↔ Spells raw value) ∧
    (∀ found, unescape raw = .error ⟨found⟩ ↔ Breaks raw found) := by
  refine ⟨fun _ _ => closeString_eq_some_iff, closeString_eq_none_iff, fun body rest h => ?_,
    escapeChar?_eq_some_iff, fun _ => unescape_eq_ok_iff, fun _ => unescape_eq_error_iff⟩
  exact (delimits_of_closeString h).paired.unescape_ne

end TinyScript.Source
