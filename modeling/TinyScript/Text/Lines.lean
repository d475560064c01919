/-!
# Lines of a byte stream

A line ends at a line feed, which is not part of it, nor is one carriage return
right before it. What follows the last line feed is a line too unless it is empty,
and keeps its carriage return.
-/

namespace TinyScript.Text

/-- The byte that ends a line. -/
def lineFeed : UInt8 := 10

/-- The byte that may stand before a line feed. -/
def carriageReturn : UInt8 := 13

/-- Drops one carriage return at the end. -/
def dropCarriageReturn (line : List UInt8) : List UInt8 :=
  if line.getLast? = some carriageReturn then line.dropLast else line

/-- The lines of a byte stream. -/
def lines (bytes : List UInt8) : List (List UInt8) :=
  let parts := bytes.splitOn lineFeed
  let terminated := parts.dropLast.map dropCarriageReturn
  match parts.getLast? with
  | some (byte :: rest) => terminated ++ [byte :: rest]
  | _ => terminated

/-- Bytes as a text, if they are well-formed UTF-8. -/
def decode? (bytes : List UInt8) : Option String :=
  String.fromUTF8? ⟨bytes.toArray⟩

end TinyScript.Text
