import TinyScript.Number.Text
import TinyScript.Text.Quoted

/-!
# Values

The values that programs compute with. Literals in a program are values too. A value
is printed in its display form and shown in syntax trees in its literal form, which
tells a string from everything else.
-/

namespace TinyScript

/-- A value of the language. -/
inductive Value where
  | number (x : Float)
  | text (s : String)
  | bool (b : Bool)
  | nil
deriving BEq, Repr

namespace Value

/-- Only `nil` and `false` count as false. -/
def truthy : Value → Bool
  | .nil => false
  | .bool b => b
  | .number _ => true
  | .text _ => true

/-- The word for a truth value. -/
def boolText (b : Bool) : String :=
  if b then "true" else "false"

/-- Text of a value in printed output. -/
def display : Value → String
  | .number x => Number.display x
  | .text s => s
  | .bool b => boolText b
  | .nil => "nil"

/-- Text of a value in a syntax tree, where `visible` tells the visible characters. -/
def literalBy (visible : Char → Bool) : Value → String
  | .number x => Number.literal x
  | .text s => Text.quotedBy visible s
  | .bool b => boolText b
  | .nil => "nil"

/-- Text of a value in a syntax tree. -/
def literal (v : Value) : String :=
  v.literalBy Text.isVisible

end Value

end TinyScript
