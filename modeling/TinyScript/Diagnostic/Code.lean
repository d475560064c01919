import TinyScript.Text.Blank

/-!
# Error codes

Every mistake in a source has a code, which the command line explains on request.
Codes that start with `E0` come from reading characters, codes that start with
`E1` from reading tokens.
-/

namespace TinyScript.Diagnostic

/-- The codes of mistakes in a source. -/
inductive Code where
  | openString
  | strayCharacter
  | illegalEscape
  | missingToken
  | missingExpression
  | missingName
  | invalidTarget
  | missingOperand
deriving DecidableEq, Repr

namespace Code

/-- Every code, in the order of the labels. -/
def all : List Code :=
  [.openString, .strayCharacter, .illegalEscape, .missingToken, .missingExpression, .missingName,
   .invalidTarget, .missingOperand]

/-- The label that users see and type. -/
def label : Code → String
  | .openString => "E0001"
  | .strayCharacter => "E0002"
  | .illegalEscape => "E0005"
  | .missingToken => "E1001"
  | .missingExpression => "E1002"
  | .missingName => "E1004"
  | .invalidTarget => "E1010"
  | .missingOperand => "E1011"

/-- One line about the mistake. -/
def description : Code → String
  | .openString => "a string literal reached the end of input before its closing quote"
  | .strayCharacter => "a character that cannot start any token"
  | .illegalEscape => "an escape other than \\\" \\b \\f \\n \\r \\t \\\\ inside a string"
  | .missingToken => "a required token such as `;`, `)` or `\x7d` is missing"
  | .missingExpression => "an expression was expected"
  | .missingName => "a variable name was expected after `var` or `,`"
  | .invalidTarget => "the left side of `=` is not a variable"
  | .missingOperand => "a binary operator appears with nothing on its left"

/-- Whether the mistake is one of characters. -/
def isLexical (c : Code) : Bool :=
  c.label.startsWith "E0"

/-- Whether the mistake is one of tokens. -/
def isSyntactic (c : Code) : Bool :=
  c.label.startsWith "E1"

/-- The code with the given label, in either case and between blanks. -/
def ofLabel? (s : String) : Option Code :=
  let wanted := (Text.trim s).map Char.toUpper
  all.find? fun c => c.label == wanted

/-- The sentence that explains a code. -/
def explanation (c : Code) : String :=
  let phase := if c.isLexical then "lexical error" else "syntax error"
  c.label ++ " (" ++ phase ++ "): " ++ c.description

/-- The explanation of the code with the given label. -/
def explain? (s : String) : Option String :=
  (ofLabel? s).map explanation

end Code

end TinyScript.Diagnostic
