import TinyScript.Diagnostic.Basic
import TinyScript.Source.Segment

/-!
# Tokens of a source

Reading a source never fails: each segment is placed on the line it starts on, the
token segments become tokens, and the segments that are no token become
diagnostics. A mistake in a string literal is reported on the line where the literal
stops, since that is where the mistake is noticed.
-/

namespace TinyScript.Source

open Diagnostic (Mistake)

namespace Segment

/-- The token of a token segment that starts on a line. -/
def tokenOn? (line : Nat) : Segment → Option Token
  | .token kind lexeme payload => some ⟨kind, String.ofList lexeme, payload, line⟩
  | _ => none

/-- The report of a segment that is no token, from the lines that it starts and ends on. -/
def diagnosticOn? (line endLine : Nat) : Segment → Option Diagnostic
  | .badEscape _ => some (Mistake.illegalEscape.onLine endLine)
  | .openString _ => some (Mistake.openString.onLine endLine)
  | .stray _ => some (Mistake.strayCharacter.onLine line)
  | _ => none

end Segment

/-- A segment and the line it starts on. -/
structure Placed where
  segment : Segment
  line : Nat

namespace Placed

/-- The line that a segment ends on. -/
def endLine (p : Placed) : Nat :=
  p.line + p.segment.text.count '\n'

/-- The token of a token segment. -/
def token? (p : Placed) : Option Token :=
  p.segment.tokenOn? p.line

/-- The report of a segment that is no token. -/
def diagnostic? (p : Placed) : Option Diagnostic :=
  p.segment.diagnosticOn? p.line p.endLine

end Placed

/-- Segments with their lines, last one first, in front of `acc`, and the line they end on. -/
def placeInto (acc : List Placed) (line : Nat) : List Segment → List Placed × Nat
  | [] => (acc.reverse, line)
  | segment :: rest =>
    let placed : Placed := ⟨segment, line⟩
    placeInto (placed :: acc) placed.endLine rest

/-- Segments with their lines, from line `line` on, and the line they end on. -/
def place (line : Nat) (segments : List Segment) : List Placed × Nat :=
  placeInto [] line segments

/-- What reading a source gives. -/
structure Lexed where
  /-- The tokens in order, the end mark last. -/
  tokens : List Token
  /-- The mistakes in order. -/
  diagnostics : List Diagnostic

/-- The tokens and mistakes of a source. -/
def lex (source : String) : Lexed :=
  let (placed, lastLine) := place 1 (segments source.toList)
  { tokens := placed.filterMap Placed.token? ++ [Token.endOfFile lastLine]
    diagnostics := placed.filterMap Placed.diagnostic? }

end TinyScript.Source
