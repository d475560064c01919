/-!
# Printed output

Where printed lines go: into a buffer that can be looked at, or straight to standard
output, which leaves nothing to look at.
-/

namespace TinyScript

/-- Where printed lines go. -/
inductive Output where
  | buffer (text : String)
  | standard

namespace Output

/-- A buffer with nothing in it. -/
def empty : Output := .buffer ""

/-- Prints a line. -/
def println (line : String) : Output → Output
  | .buffer text => .buffer (text ++ line ++ "\n")
  | .standard => .standard

/-- What can be looked at. -/
def text : Output → String
  | .buffer text => text
  | .standard => ""

/-- Forgets what was printed. -/
def clear : Output → Output
  | .buffer _ => .empty
  | .standard => .standard

end Output

end TinyScript
