/-!
# Escapes in string literals

Between its quotes a string literal is a row of units: a character other than a
backslash, which stands for itself, or a backslash with one letter, which together
stand for the character the letter names. `unescape` reads the units from left to
right and stops at the first one that names nothing.
-/

namespace TinyScript.Source

/-- A backslash that names no character: with the letter after it, if there is one. -/
structure BadEscape where
  found : Option Char
deriving DecidableEq, Repr

/-- The character that an escape letter names. -/
def escapeChar? : Char → Option Char
  | '"' => some '"'
  | '\\' => some '\\'
  | 'b' => some '\x08'
  | 'f' => some '\x0c'
  | 'n' => some '\n'
  | 'r' => some '\r'
  | 't' => some '\t'
  | _ => none

/-- Reads units and puts what they stand for, last one first, in front of `acc`. -/
def unescapeInto (acc : List Char) : List Char → Except BadEscape (List Char)
  | [] => .ok acc.reverse
  | c :: rest =>
    if c = '\\' then
      match rest with
      | [] => .error ⟨none⟩
      | letter :: rest' =>
        match escapeChar? letter with
        | some named => unescapeInto (named :: acc) rest'
        | none => .error ⟨some letter⟩
    else
      unescapeInto (c :: acc) rest

/-- The text that the raw body of a string literal stands for. -/
def unescape (raw : List Char) : Except BadEscape (List Char) :=
  unescapeInto [] raw

end TinyScript.Source
