import TinyScript.Session.Basic
import TinyScript.Text.Blank

/-!
# The prompt

A conversation with a session: a banner, and then a prompt before every line. It ends
at the end of the input, at the exit command, at a line that is no text, or when the
prompt cannot be written.

The conversation is recorded as a list of events, in order, so that what was written
as prompts and what programs printed can be told apart or read as one text.
-/

namespace TinyScript

/-- Something that was written during a conversation. -/
inductive Event where
  | prompted (text : String)
  | printed (text : String)
deriving DecidableEq, Repr

/-- Why a conversation broke off. -/
inductive PromptError where
  | notText
  | outputFull
deriving DecidableEq, Repr

/-- What is said about a conversation that broke off. -/
def PromptError.message : PromptError → String
  | .notText => invalidTextMessage
  | .outputFull => "output limit"

namespace Prompt

/-- The first line of every conversation. -/
def banner : String := "(To exit, press ^D or enter \x23exit)\n"

/-- What stands before every line. -/
def mark : String := "> "

/-- The line that ends a conversation. -/
def exitCommand : String := "\x23exit"

/-- How a conversation goes on after a line. -/
inductive Reply (σ : Type) where
  | leave
  | notText
  | ran (outcome : Outcome) (session : Session σ)

/-- Takes a line, without its line end, to the session. -/
def respond {σ : Type} [Sink σ] (s : Session σ) (line : List UInt8) : Reply σ :=
  match Text.decode? line with
  | none => .notText
  | some source =>
    if Text.trim source = exitCommand then
      .leave
    else
      let (outcome, s) := s.runLine source
      .ran outcome s

/-- Room for prompts, in bytes; without a limit there is always room. -/
abbrev Room := Option Nat

/-- The part of a text there is room for, and the room left after all of it. -/
def fit (room : Room) (text : String) : String × Except PromptError Room :=
  match room with
  | none => (text, .ok none)
  | some n =>
    if text.utf8ByteSize ≤ n then (text, .ok (some (n - text.utf8ByteSize)))
    else (String.ofList (text.toList.take n), .error .outputFull)

/-- What a conversation gives. -/
structure Record (σ : Type) where
  /-- Everything that was written, in order. -/
  events : List Event
  result : Except PromptError Unit
  /-- How each line fared that was run. -/
  outcomes : List Outcome
  /-- Whether the input was read to its end. -/
  reachedEnd : Bool
  session : Session σ

namespace Record

variable {σ : Type}

/-- What was written as prompts. -/
def promptText (r : Record σ) : String :=
  String.join (r.events.map fun
    | .prompted text => text
    | .printed _ => "")

/-- What programs printed. -/
def printedText (r : Record σ) : String :=
  String.join (r.events.map fun
    | .prompted _ => ""
    | .printed text => text)

/-- Everything that was written, as one text. -/
def allText (r : Record σ) : String :=
  String.join (r.events.map fun
    | .prompted text => text
    | .printed text => text)

end Record

/-- A conversation under way. Events and outcomes are kept with the last one first. -/
structure State (σ : Type) where
  session : Session σ
  room : Room
  events : List Event
  outcomes : List Outcome

namespace State

variable {σ : Type}

/-- Writes a prompt text, as far as there is room. -/
def write (st : State σ) (text : String) : State σ × Except PromptError Unit :=
  let (part, room) := fit st.room text
  let events := .prompted part :: st.events
  match room with
  | .ok room => ({ st with events, room }, .ok ())
  | .error e => ({ st with events }, .error e)

/-- Moves what a line printed from the machine to the events. -/
def absorb (st : State σ) (outcome : Outcome) (s : Session σ) : State σ :=
  let machine := { s.machine with output := s.machine.output.clear }
  { st with
    session := { s with machine }
    events := .printed s.machine.output.text :: st.events
    outcomes := outcome :: st.outcomes }

/-- Ends a conversation. -/
def finish (st : State σ) (result : Except PromptError Unit) (reachedEnd : Bool) : Record σ :=
  ⟨st.events.reverse, result, st.outcomes.reverse, reachedEnd, st.session⟩

end State

/-- Goes through the lines of the input. -/
def converse {σ : Type} [Sink σ] (st : State σ) (lines : List (List UInt8)) : Record σ :=
  match st.write mark with
  | (st, .error e) => st.finish (.error e) false
  | (st, .ok _) =>
    match lines with
    | [] => st.finish (.ok ()) true
    | line :: rest =>
      match respond st.session line with
      | .leave => st.finish (.ok ()) false
      | .notText => st.finish (.error .notText) false
      | .ran outcome s => converse (st.absorb outcome s) rest

/-- The conversation over a whole input. -/
def run {σ : Type} [Sink σ] (s : Session σ) (input : List UInt8) (room : Room) : Record σ :=
  match State.write ⟨s, room, [], []⟩ banner with
  | (st, .error e) => st.finish (.error e) false
  | (st, .ok _) => converse st (Text.lines input)

end Prompt

end TinyScript
