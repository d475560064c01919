import TinyScript.Diagnostic.Code
import TinyScript.Token.Basic

/-!
# Diagnostics

A diagnostic is a report about a mistake in a source: its code, its line, the place
on that line and a message. The messages this language knows are the constructors of
`Mistake`; the place is the token that was found, or the end of the source.
-/

namespace TinyScript

/-- Where on its line a mistake was found. -/
inductive Diagnostic.Place where
  | unspecified
  | atEnd
  | atLexeme (lexeme : String)
deriving DecidableEq, Repr

/-- A report about a mistake in a source. -/
structure Diagnostic where
  code : Diagnostic.Code
  line : Nat
  place : Diagnostic.Place
  message : String
deriving DecidableEq, Repr

/-- A report about a run that failed. -/
structure RuntimeReport where
  line : Nat
  lexeme : String
  message : String
deriving DecidableEq, Repr

namespace Diagnostic

/-- The words for a place, ready to follow the word `Error`. -/
def Place.text : Place → String
  | .unspecified => ""
  | .atEnd => " at end"
  | .atLexeme lexeme => " at '" ++ lexeme ++ "'"

/-- The marker that every report starts with. -/
def lineMarker (line : Nat) : String :=
  "[line " ++ toString line ++ "]"

/-- A diagnostic as one line of text. -/
def text (d : Diagnostic) : String :=
  lineMarker d.line ++ " Error" ++ d.place.text ++ ": " ++ d.message

/-- What can be wrong with a source. -/
inductive Mistake where
  | openString
  | strayCharacter
  | illegalEscape
  | noSemicolonAfterDeclaration
  | noSemicolonAfterValue
  | noSemicolonAfterExpression
  | noBraceAfterBlock
  | noColonAfterBranch
  | noParenAfterExpression
  | noExpression
  | noVariableName
  | invalidTarget
  | noLeftOperand
deriving DecidableEq, Repr

namespace Mistake

/-- The code of a mistake. -/
def code : Mistake → Code
  | .openString => .openString
  | .strayCharacter => .strayCharacter
  | .illegalEscape => .illegalEscape
  | .noSemicolonAfterDeclaration => .missingToken
  | .noSemicolonAfterValue => .missingToken
  | .noSemicolonAfterExpression => .missingToken
  | .noBraceAfterBlock => .missingToken
  | .noColonAfterBranch => .missingToken
  | .noParenAfterExpression => .missingToken
  | .noExpression => .missingExpression
  | .noVariableName => .missingName
  | .invalidTarget => .invalidTarget
  | .noLeftOperand => .missingOperand

/-- The message of a mistake. -/
def message : Mistake → String
  | .openString => "Unterminated string."
  | .strayCharacter => "Unexpected character."
  | .illegalEscape => "Illegal escape character in string literal."
  | .noSemicolonAfterDeclaration => "';' Expected"
  | .noSemicolonAfterValue => "Expected ';' after value."
  | .noSemicolonAfterExpression => "Expected ';' after expression."
  | .noBraceAfterBlock => "Expected '\x7d' after block statement."
  | .noColonAfterBranch => "Expect ':' after then branch of expression."
  | .noParenAfterExpression => "Expect ')' after expression."
  | .noExpression => "Expect expression."
  | .noVariableName => "Expect variable name."
  | .invalidTarget => "Invalid assignment target."
  | .noLeftOperand => "Missing left-hand operand."

/-- The report of a mistake in the characters of a line. -/
def onLine (m : Mistake) (line : Nat) : Diagnostic :=
  ⟨m.code, line, .unspecified, m.message⟩

/-- The report of a mistake that a token shows. -/
def atToken (m : Mistake) (t : Token) : Diagnostic :=
  ⟨m.code, t.line, .atLexeme t.lexeme, m.message⟩

/-- The report of a mistake that the end of the source shows. -/
def atEnd (m : Mistake) (line : Nat) : Diagnostic :=
  ⟨m.code, line, .atEnd, m.message⟩

end Mistake

end Diagnostic

end TinyScript
