/-!
# Kinds of tokens

The alphabet of the grammar: punctuation, operators, the three kinds that carry a
text of their own, the reserved words, and the mark at the end of a source. The
declaration order matters, since the position of a kind is its bit in a `KindSet`.
-/

namespace TinyScript.Token

/-- The kinds of tokens, reserved words with the mark `kw`. -/
inductive Kind where
  | leftParen | rightParen | leftBrace | rightBrace | comma | dot | minus | plus | semicolon
  | colon | question | slash | star
  | bang | bangEqual | equal | equalEqual | greater | greaterEqual | less | lessEqual
  | identifier | text | number
  | kwAnd | kwClass | kwElse | kwFalse | kwFun | kwFor | kwIf | kwNil
  | kwOr | kwPrint | kwReturn | kwSuper | kwThis | kwTrue | kwVar | kwWhile
  | endOfFile
deriving DecidableEq, Repr, Inhabited

namespace Kind

/-- Every kind, in declaration order. -/
def all : List Kind :=
  [.leftParen, .rightParen, .leftBrace, .rightBrace, .comma, .dot, .minus, .plus, .semicolon,
   .colon, .question, .slash, .star, .bang, .bangEqual, .equal, .equalEqual, .greater,
   .greaterEqual, .less, .lessEqual, .identifier, .text, .number, .kwAnd, .kwClass, .kwElse,
   .kwFalse, .kwFun, .kwFor, .kwIf, .kwNil, .kwOr, .kwPrint, .kwReturn, .kwSuper, .kwThis,
   .kwTrue, .kwVar, .kwWhile, .endOfFile]

/-- Position of a kind in the declaration order. -/
def index (k : Kind) : Nat :=
  k.ctorIdx

/-- The list of all kinds leaves none out. -/
theorem mem_all (k : Kind) : k ∈ all := by
  cases k <;> decide

/-- A kind stands at its index in the list of all kinds. -/
theorem getElem?_all_index (k : Kind) : all[k.index]? = some k := by
  cases k <;> rfl

/-- Kinds with the same index are equal. -/
theorem index_inj {j k : Kind} (h : j.index = k.index) : j = k := by
  have hj := getElem?_all_index j
  rw [h, getElem?_all_index k] at hj
  exact (Option.some.inj hj).symm

/-- Every index is a bit position of a 64-bit word. -/
theorem index_lt (k : Kind) : k.index < 64 := by
  cases k <;> decide

/-- Whether a kind is a reserved word. -/
def isKeyword (k : Kind) : Bool :=
  kwAnd.index ≤ k.index && k.index ≤ kwWhile.index

/-- Name of a kind where tokens are shown. -/
def name : Kind → String
  | .leftParen => "LeftParen"
  | .rightParen => "RightParen"
  | .leftBrace => "LeftBrace"
  | .rightBrace => "RightBrace"
  | .comma => "Comma"
  | .dot => "Dot"
  | .minus => "Minus"
  | .plus => "Plus"
  | .semicolon => "Semicolon"
  | .colon => "Colon"
  | .question => "Question"
  | .slash => "Slash"
  | .star => "Star"
  | .bang => "Bang"
  | .bangEqual => "BangEqual"
  | .equal => "Equal"
  | .equalEqual => "EqualEqual"
  | .greater => "Greater"
  | .greaterEqual => "GreaterEqual"
  | .less => "Less"
  | .lessEqual => "LessEqual"
  | .identifier => "Identifier"
  | .text => "String"
  | .number => "Number"
  | .kwAnd => "And"
  | .kwClass => "Class"
  | .kwElse => "Else"
  | .kwFalse => "False"
  | .kwFun => "Fun"
  | .kwFor => "For"
  | .kwIf => "If"
  | .kwNil => "Nil"
  | .kwOr => "Or"
  | .kwPrint => "Print"
  | .kwReturn => "Return"
  | .kwSuper => "Super"
  | .kwThis => "This"
  | .kwTrue => "True"
  | .kwVar => "Var"
  | .kwWhile => "While"
  | .endOfFile => "Eof"

/-- What a kind is called in prose: its text, or a description if its text varies. -/
def spelling : Kind → String
  | .leftParen => "("
  | .rightParen => ")"
  | .leftBrace => "\x7b"
  | .rightBrace => "\x7d"
  | .comma => ","
  | .dot => "."
  | .minus => "-"
  | .plus => "+"
  | .semicolon => ";"
  | .colon => ":"
  | .question => "?"
  | .slash => "/"
  | .star => "*"
  | .bang => "!"
  | .bangEqual => "!="
  | .equal => "="
  | .equalEqual => "=="
  | .greater => ">"
  | .greaterEqual => ">="
  | .less => "<"
  | .lessEqual => "<="
  | .identifier => "identifier"
  | .text => "string"
  | .number => "number"
  | .kwAnd => "and"
  | .kwClass => "class"
  | .kwElse => "else"
  | .kwFalse => "false"
  | .kwFun => "fun"
  | .kwFor => "for"
  | .kwIf => "if"
  | .kwNil => "nil"
  | .kwOr => "or"
  | .kwPrint => "print"
  | .kwReturn => "return"
  | .kwSuper => "super"
  | .kwThis => "this"
  | .kwTrue => "true"
  | .kwVar => "var"
  | .kwWhile => "while"
  | .endOfFile => "end of file"

/-- The kind with the given name. -/
def ofName? (s : String) : Option Kind :=
  all.find? fun k => k.name == s

/-- The reserved word that a text spells. -/
def keyword? (s : String) : Option Kind :=
  all.find? fun k => k.isKeyword && k.spelling == s

end Kind

end TinyScript.Token
