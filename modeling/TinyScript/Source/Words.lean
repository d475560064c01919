import TinyScript.Source.Lexer

/-!
# Lines in words

The counter of lines is a word of 32 bits: it starts at one and wraps around behind the
largest word. The line feeds of a segment are counted by themselves first, no further than
the largest word, and then added to the counter. `lex` counts lines without a bound, which
makes no difference to sources with fewer than `2 ^ 32 - 1` line feeds.
-/

namespace TinyScript.Source

/-- The largest word, which is also the largest number of line feeds that is counted at once. -/
def maxWord : Nat := 0xffffffff

/-- The line feeds of a segment, counted no further than the largest word. -/
def Segment.feedsWord (s : Segment) : UInt32 :=
  UInt32.ofNat (min (s.text.count '\n') maxWord)

/-- A segment and what the counter holds where it starts. -/
structure Stamped where
  segment : Segment
  line : UInt32

namespace Stamped

/-- What the counter holds where a segment ends. -/
def endLine (s : Stamped) : UInt32 :=
  s.line + s.segment.feedsWord

/-- The token of a token segment. -/
def token? (s : Stamped) : Option Token :=
  s.segment.tokenOn? s.line.toNat

/-- The report of a segment that is no token. -/
def diagnostic? (s : Stamped) : Option Diagnostic :=
  s.segment.diagnosticOn? s.line.toNat s.endLine.toNat

end Stamped

/-- Segments with the counter at each of them, last one first, in front of `acc`, and the
counter at their end. -/
def stampInto (acc : List Stamped) (line : UInt32) : List Segment → List Stamped × UInt32
  | [] => (acc.reverse, line)
  | segment :: rest =>
    let stamped : Stamped := ⟨segment, line⟩
    stampInto (stamped :: acc) stamped.endLine rest

/-- Segments with the counter at each of them, which holds `line` first, and the counter at
their end. -/
def stamp (line : UInt32) (segments : List Segment) : List Stamped × UInt32 :=
  stampInto [] line segments

/-- The tokens and mistakes of a source, with lines in words. -/
def lexWords (source : String) : Lexed :=
  let (stamped, lastLine) := stamp 1 (segments source.toList)
  { tokens := stamped.filterMap Stamped.token? ++ [Token.endOfFile lastLine.toNat]
    diagnostics := stamped.filterMap Stamped.diagnostic? }

end TinyScript.Source
