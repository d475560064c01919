import TinyScript.Text.Visible

/-!
# Quoted text

The literal form of a string: between quotes, on one line, with every character
either visible or named by an escape. The escapes are `\"`, `\\`, `\n`, `\r`, `\t`
and `\0`, and `\u` with the code point in hexadecimal between braces for the rest.
Which characters are visible is a table that grows from one version of Unicode to the
next, so it is a parameter of the form.
-/

namespace TinyScript.Text

/-- An escape that names a character by its code point. -/
def codePointEscape (c : Char) : List Char :=
  ['\\', 'u', '\x7b'] ++ Nat.toDigits 16 c.toNat ++ ['\x7d']

/-- One character of a quoted text, where `visible` tells the visible ones. -/
def quotedChar (visible : Char → Bool) (c : Char) : List Char :=
  match c with
  | '"' => ['\\', '"']
  | '\\' => ['\\', '\\']
  | '\n' => ['\\', 'n']
  | '\r' => ['\\', 'r']
  | '\t' => ['\\', 't']
  | '\x00' => ['\\', '0']
  | _ => if visible c then [c] else codePointEscape c

/-- The characters of a quoted text, quotes included. -/
def quotedChars (visible : Char → Bool) (cs : List Char) : List Char :=
  '"' :: (cs.flatMap (quotedChar visible) ++ ['"'])

/-- Literal form of a string, where `visible` tells the visible characters. -/
def quotedBy (visible : Char → Bool) (s : String) : String :=
  String.ofList (quotedChars visible s.toList)

/-- Literal form of a string. -/
def quoted (s : String) : String :=
  quotedBy isVisible s

end TinyScript.Text
