import TinyScript.Number.Text
import TinyScript.Text.Quoted
import TinyScript.Token.Kind

/-!
# Tokens

A token is a kind with the text it was written with, the line it starts on and,
for numbers and strings, the value it stands for.
-/

namespace TinyScript

/-- What a number or string token stands for. -/
inductive Token.Payload where
  | number (value : Float)
  | text (value : String)
deriving BEq, Repr

/-- A token of a source. -/
structure Token where
  kind : Token.Kind
  lexeme : String
  payload : Option Token.Payload
  line : Nat
deriving BEq, Repr

namespace Token

/-- A payload where tokens are shown. -/
def Payload.describe : Payload → String
  | .number value => "Number(" ++ Number.literal value ++ ")"
  | .text value => "Str(" ++ Text.quoted value ++ ")"

/-- The mark at the end of a source. -/
def endOfFile (line : Nat) : Token :=
  ⟨.endOfFile, "", none, line⟩

/-- One line that shows everything about a token. -/
def describe (t : Token) : String :=
  let payload := match t.payload with
    | some p => " " ++ p.describe
    | none => ""
  t.kind.name ++ " " ++ Text.quoted t.lexeme ++ payload ++ " @ line " ++ toString t.line

end Token

end TinyScript
