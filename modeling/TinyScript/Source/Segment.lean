import TinyScript.Source.Escape
import TinyScript.Token.Basic

/-!
# Segments of a source

A source is cut into segments that leave no character out: blanks, line feeds,
comments, tokens, and the three kinds of text that are no token. Which segment
comes next is decided by the first character and, where two segments start alike,
by taking the longer one.

Main definitions:

* `Segment`: one piece of a source, `Segment.text`: its characters;
* `Segment.first`: the first segment of a source and what is left after it;
* `segments`: all segments of a source.
-/

namespace TinyScript.Source

open Token (Kind Payload)

/-- One piece of a source. -/
inductive Segment where
  /-- A run of spaces, tabs and carriage returns. -/
  | blank (run : List Char)
  | lineFeed
  /-- Two slashes and everything up to the end of the line. -/
  | comment (run : List Char)
  | token (kind : Kind) (lexeme : List Char) (payload : Option Payload)
  /-- A closed string literal in which a backslash names no character. -/
  | badEscape (literal : List Char)
  /-- A string literal that the source ends in. -/
  | openString (literal : List Char)
  /-- A character that starts nothing. -/
  | stray (c : Char)

namespace Segment

/-- The characters of a segment. -/
def text : Segment → List Char
  | .blank run => run
  | .lineFeed => ['\n']
  | .comment run => run
  | .token _ lexeme _ => lexeme
  | .badEscape literal => literal
  | .openString literal => literal
  | .stray c => [c]

/-! ## Character classes -/

/-- Blanks between tokens; a line feed is not one of them. -/
def isBlank (c : Char) : Bool :=
  c == ' ' || c == '\t' || c == '\r'

/-- Characters that end a comment. -/
def isLineEnd (c : Char) : Bool :=
  c == '\n' || c == '\r'

/-- Characters that start a name. -/
def isNameStart (c : Char) : Bool :=
  c.isAlpha || c == '_'

/-- Characters that continue a name. -/
def isNamePart (c : Char) : Bool :=
  c.isAlphanum || c == '_'

/-- The token that a single character is. -/
def symbol? : Char → Option Kind
  | '(' => some .leftParen
  | ')' => some .rightParen
  | '\x7b' => some .leftBrace
  | '\x7d' => some .rightBrace
  | ',' => some .comma
  | '.' => some .dot
  | '-' => some .minus
  | '+' => some .plus
  | ';' => some .semicolon
  | ':' => some .colon
  | '?' => some .question
  | '/' => some .slash
  | '*' => some .star
  | '!' => some .bang
  | '=' => some .equal
  | '>' => some .greater
  | '<' => some .less
  | _ => none

/-- The token that a character and an equals sign are together. -/
def symbolEqual? : Char → Option Kind
  | '!' => some .bangEqual
  | '=' => some .equalEqual
  | '>' => some .greaterEqual
  | '<' => some .lessEqual
  | _ => none

/-! ## The first segment -/

/-- A name or a reserved word that starts with `c`. -/
def word (c : Char) (cs : List Char) : Segment × List Char :=
  let lexeme := c :: cs.takeWhile isNamePart
  let kind := (Kind.keyword? (String.ofList lexeme)).getD .identifier
  (.token kind lexeme none, cs.dropWhile isNamePart)

/-- The digits after a point, if a point and a digit come next, and what follows them. -/
def fraction? : List Char → Option (List Char × List Char)
  | '.' :: d :: rest =>
    if d.isDigit then
      some (d :: rest.takeWhile Char.isDigit, rest.dropWhile Char.isDigit)
    else
      none
  | _ => none

/-- A number that starts with the digit `c`; a point belongs to it only before another digit. -/
def number (c : Char) (cs : List Char) : Segment × List Char :=
  let whole := c :: cs.takeWhile Char.isDigit
  match fraction? (cs.dropWhile Char.isDigit) with
  | some (fraction, rest) =>
    let value := (Decimal.ofDigits whole fraction).toFloat
    (.token .number (whole ++ '.' :: fraction) (some (.number value)), rest)
  | none =>
    let value := (Decimal.ofDigits whole []).toFloat
    (.token .number whole (some (.number value)), cs.dropWhile Char.isDigit)

/--
The body of a string literal up to its closing quote, and what follows the quote. A
backslash and the character after it are passed over together.
-/
def closeString (acc : List Char) : List Char → Option (List Char × List Char)
  | [] => none
  | c :: rest =>
    if c = '"' then
      some (acc.reverse, rest)
    else if c = '\\' then
      match rest with
      | [] => none
      | d :: rest' => closeString (d :: c :: acc) rest'
    else
      closeString (c :: acc) rest

/-- A string literal whose opening quote has been read. -/
def string (cs : List Char) : Segment × List Char :=
  match closeString [] cs with
  | none => (.openString ('"' :: cs), [])
  | some (body, rest) =>
    let literal := '"' :: (body ++ ['"'])
    match unescape body with
    | .ok value => (.token .text literal (some (.text (String.ofList value))), rest)
    | .error _ => (.badEscape literal, rest)

/-- A symbol that starts with `c`, or a stray character. -/
def symbol (c : Char) (cs : List Char) : Segment × List Char :=
  match symbolEqual? c, cs with
  | some kind, '=' :: rest => (.token kind [c, '='] none, rest)
  | _, _ =>
    match symbol? c with
    | some kind => (.token kind [c] none, cs)
    | none => (.stray c, cs)

/-- The first segment of the source `c :: cs`, and the source after it. -/
def first (c : Char) (cs : List Char) : Segment × List Char :=
  if isBlank c then
    (.blank (c :: cs.takeWhile isBlank), cs.dropWhile isBlank)
  else if c = '\n' then
    (.lineFeed, cs)
  else if c = '"' then
    string cs
  else if c.isDigit then
    number c cs
  else if isNameStart c then
    word c cs
  else if c = '/' ∧ cs.head? = some '/' then
    (.comment (c :: cs.takeWhile (!isLineEnd ·)), cs.dropWhile (!isLineEnd ·))
  else
    symbol c cs

/-! ## Nothing is lost -/

/-- A closed string splits into its body, the quote and what follows. -/
theorem closeString_eq {acc cs body rest : List Char}
    (h : closeString acc cs = some (body, rest)) :
    acc.reverse ++ cs = body ++ '"' :: rest := by
  fun_induction closeString acc cs with
  | case1 => cases h
  | case2 acc rest' =>
    simp only [Option.some.injEq, Prod.mk.injEq] at h
    obtain ⟨rfl, rfl⟩ := h
    rfl
  | case3 => cases h
  | case4 acc d rest' _ ih => simpa using ih h
  | case5 acc c rest' _ _ ih => simpa using ih h

/-- A fraction is a point, its digits and what follows. -/
theorem fraction?_eq {cs fraction rest : List Char}
    (h : fraction? cs = some (fraction, rest)) :
    cs = '.' :: (fraction ++ rest) := by
  unfold fraction? at h
  split at h
  · split at h
    · cases h
      simp
    · cases h
  · cases h

theorem text_word (c : Char) (cs : List Char) :
    (word c cs).1.text ++ (word c cs).2 = c :: cs := by
  simp [word, text]

theorem text_number (c : Char) (cs : List Char) :
    (number c cs).1.text ++ (number c cs).2 = c :: cs := by
  unfold number
  split
  · next fraction rest h =>
    have hDrop := fraction?_eq h
    simp only [text, List.cons_append, List.append_assoc, ← hDrop,
      List.takeWhile_append_dropWhile]
  · simp [text]

theorem text_string (cs : List Char) :
    (string cs).1.text ++ (string cs).2 = '"' :: cs := by
  unfold string
  split
  · simp [text]
  · next body rest h =>
    have hBody := closeString_eq h
    split <;> simp_all [text]

theorem text_symbol (c : Char) (cs : List Char) :
    (symbol c cs).1.text ++ (symbol c cs).2 = c :: cs := by
  unfold symbol
  split
  · rfl
  · split <;> rfl

/-- The first segment and the rest make up the source. -/
theorem text_first (c : Char) (cs : List Char) :
    (first c cs).1.text ++ (first c cs).2 = c :: cs := by
  unfold first
  split
  · simp [text]
  split
  · next h => simp [text, h]
  split
  · next h => rw [h, text_string]
  split
  · exact text_number c cs
  split
  · exact text_word c cs
  split
  · simp [text]
  · exact text_symbol c cs

/-! ## Every segment has a character -/

theorem text_string_ne_nil (cs : List Char) : (string cs).1.text ≠ [] := by
  unfold string
  split
  · simp [text]
  · split <;> simp [text]

theorem text_number_ne_nil (c : Char) (cs : List Char) : (number c cs).1.text ≠ [] := by
  unfold number
  split <;> simp [text]

theorem text_symbol_ne_nil (c : Char) (cs : List Char) : (symbol c cs).1.text ≠ [] := by
  unfold symbol
  split
  · simp [text]
  · split <;> simp [text]

/-- No segment is empty. -/
theorem text_first_ne_nil (c : Char) (cs : List Char) : (first c cs).1.text ≠ [] := by
  unfold first
  split
  · simp [text]
  split
  · simp [text]
  split
  · exact text_string_ne_nil cs
  split
  · exact text_number_ne_nil c cs
  split
  · simp [word, text]
  split
  · simp [text]
  · exact text_symbol_ne_nil c cs

/-- What is left after the first segment is shorter than the source. -/
theorem length_rest_first (c : Char) (cs : List Char) :
    (first c cs).2.length < (c :: cs).length := by
  have hLength := congrArg List.length (text_first c cs)
  have hText := List.length_pos_iff.mpr (text_first_ne_nil c cs)
  simp only [List.length_append] at hLength
  omega

end Segment

/-- The segments of a source, last one first, in front of `acc`. -/
def segmentsInto (acc : List Segment) (cs : List Char) : List Segment :=
  match cs with
  | [] => acc.reverse
  | c :: rest =>
    let step := Segment.first c rest
    segmentsInto (step.1 :: acc) step.2
termination_by cs.length
decreasing_by exact Segment.length_rest_first c rest

/-- The segments of a source, in order. -/
def segments (cs : List Char) : List Segment :=
  segmentsInto [] cs

end TinyScript.Source
