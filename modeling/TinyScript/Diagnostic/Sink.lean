import TinyScript.Diagnostic.Basic

/-!
# Where reports go

A sink takes reports and remembers whether there were any. Two sinks exist: a
`Queue` that keeps the reports, for a host that shows them itself, and a `Terminal`
that writes each one as text. They differ in what they keep, never in the two flags,
so whatever drives a sink behaves the same over both.
-/

namespace TinyScript

/-- Something that takes reports. -/
class Sink (σ : Type) where
  /-- Takes a report about the source. -/
  report : σ → Diagnostic → σ
  /-- Takes a report about a run. -/
  reportRuntime : σ → RuntimeReport → σ
  /-- Clears the flag of mistakes in a source, and nothing else. -/
  resetErrors : σ → σ
  /-- Whether a mistake was reported since the flag was last cleared. -/
  hadError : σ → Bool
  /-- Whether a failed run was reported. -/
  hadRuntimeError : σ → Bool

namespace Sink

/-- Takes reports about the source in order. -/
def reportAll {σ : Type} [Sink σ] (sink : σ) (ds : List Diagnostic) : σ :=
  ds.foldl report sink

end Sink

/-- What a caller is told once a failed run has been reported. -/
def errorsEmitted : String := "error(s) emitted"

/-- Takes a report about a run, and tells the caller so. -/
def Sink.emitRuntime {σ : Type} [Sink σ] (sink : σ) (r : RuntimeReport) : String × σ :=
  (errorsEmitted, reportRuntime sink r)

/-! ## Queue -/

/-- A sink that keeps every report. -/
structure Queue where
  diagnostics : List Diagnostic := []
  runtimeErrors : List RuntimeReport := []
  /-- Number of diagnostics since the flag was last cleared. -/
  pending : Nat := 0
deriving DecidableEq, Repr

namespace Queue

/-- The kept diagnostics as lines of text. -/
def messages (q : Queue) : List String :=
  q.diagnostics.map Diagnostic.text

/-- Hands out the kept diagnostics and forgets every report. -/
def flush (q : Queue) : List Diagnostic × Queue :=
  (q.diagnostics, {})

instance : Sink Queue where
  report q d := { q with diagnostics := q.diagnostics ++ [d], pending := q.pending + 1 }
  reportRuntime q r := { q with runtimeErrors := q.runtimeErrors ++ [r] }
  resetErrors q := { q with pending := 0 }
  hadError q := 0 < q.pending
  hadRuntimeError q := !q.runtimeErrors.isEmpty

end Queue

/-! ## Terminal -/

/-- When reports are written in colour. -/
inductive ColorMode where
  | auto
  | always
  | never
deriving DecidableEq, Repr

namespace ColorMode

/-- The mode with the given name. -/
def ofName? : String → Option ColorMode
  | "auto" => some .auto
  | "always" => some .always
  | "never" => some .never
  | _ => none

/-- Whether to write in colour, on a terminal or not. -/
def useColors (mode : ColorMode) (tty : Bool) : Bool :=
  match mode with
  | .auto => tty
  | .always => true
  | .never => false

end ColorMode

/-- The texts that switch colours on and off. -/
structure Palette where
  line : String
  error : String
  reset : String

namespace Palette

/-- No colours. -/
def plain : Palette := ⟨"", "", ""⟩

/-- A bold blue line marker and a bold red label. -/
def ansi : Palette := ⟨"\x1b[1;34m", "\x1b[1;31m", "\x1b[0m"⟩

/-- The start of every report: the line marker and the word `Error`. -/
def heading (p : Palette) (line : Nat) : String :=
  p.line ++ Diagnostic.lineMarker line ++ p.reset ++ " " ++ p.error ++ "Error" ++ p.reset

/-- A diagnostic as text, with its line end. -/
def diagnosticText (p : Palette) (d : Diagnostic) : String :=
  p.heading d.line ++ d.place.text ++ ": " ++ d.message ++ "\n"

/-- A report about a run as text, with its line ends. -/
def runtimeText (p : Palette) (r : RuntimeReport) : String :=
  p.heading r.line ++ " at '" ++ r.lexeme ++ "'\n" ++ r.message ++ "\n"

end Palette

/-- A sink that writes every report as text. -/
structure Terminal where
  palette : Palette
  /-- Everything written so far. -/
  written : String := ""
  errorFlag : Bool := false
  runtimeErrorFlag : Bool := false

namespace Terminal

/-- A terminal that has written nothing yet. -/
def new (mode : ColorMode) (tty : Bool) : Terminal :=
  { palette := if mode.useColors tty then .ansi else .plain }

/-- Hands out the written text and starts a new one. -/
def take (t : Terminal) : String × Terminal :=
  (t.written, { t with written := "" })

instance : Sink Terminal where
  report t d := { t with written := t.written ++ t.palette.diagnosticText d, errorFlag := true }
  reportRuntime t r :=
    { t with written := t.written ++ t.palette.runtimeText r, runtimeErrorFlag := true }
  resetErrors t := { t with errorFlag := false }
  hadError t := t.errorFlag
  hadRuntimeError t := t.runtimeErrorFlag

end Terminal

end TinyScript
