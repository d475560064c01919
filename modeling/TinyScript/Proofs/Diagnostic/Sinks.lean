import Mathlib.Data.List.Induction
import TinyScript.Diagnostic.Sink

/-!
# Sinks under calls

What is asked of a sink is a list of calls. Each of the two flags is about that list: one
says whether a mistake was reported since the flag was last lowered, the other whether a
failed run was ever reported. `Sink.Lawful` says this call by call. A sink that counts, like
the queue, and one that keeps two truth values, like the terminal, are both lawful, and
lawful sinks whose flags agree once agree after all calls that they share.

A terminal also writes. What a call writes is a row of fragments, and colours are wrapped
around two of them, the line marker and the word `Error`; without colours the fragments of
a call are its text.

## Main results

* `Sink.hadError_handle_iff`, `Sink.hadRuntimeError_handle_iff`: what the flags say.
* `Sink.Agree.handle`: two lawful sinks agree after all calls.
* `Terminal.written_handle`: what a terminal has written.
-/

namespace TinyScript

/-! ## Since -/

/-- Some member of the list is, after those before it, a `P`, and no later member is a `Q`. -/
def Since {α : Type} (P : List α → α → Prop) (Q : α → Prop) (l : List α) : Prop :=
  ∃ before x after, l = before ++ x :: after ∧ P before x ∧ ∀ y ∈ after, ¬Q y

section Since

variable {α : Type} {P : List α → α → Prop} {Q : α → Prop}

theorem not_since_nil : ¬Since P Q [] := by
  rintro ⟨before, x, after, hSplit, -⟩
  simp at hSplit

/-- With one member more, it is that one, or it was one before and the new one is no `Q`. -/
theorem since_concat {l : List α} {x : α} :
    Since P Q (l ++ [x]) ↔ P l x ∨ ¬Q x ∧ Since P Q l := by
  constructor
  · rintro ⟨before, y, after, hSplit, hP, hQ⟩
    rcases List.eq_nil_or_concat after with rfl | ⟨after, z, rfl⟩
    · obtain ⟨rfl, rfl⟩ := List.append_singleton_inj.1 hSplit
      exact .inl hP
    · have hSplit' : l ++ [x] = (before ++ y :: after) ++ [z] := by simpa using hSplit
      obtain ⟨rfl, rfl⟩ := List.append_singleton_inj.1 hSplit'
      exact .inr ⟨hQ x (by simp), before, y, after, rfl, hP, fun w hw => hQ w (by simp [hw])⟩
  · rintro (hP | ⟨hQ, before, y, after, rfl, hP, hAfter⟩)
    · exact ⟨l, x, [], rfl, hP, by simp⟩
    · refine ⟨before, y, after ++ [x], by simp, hP, fun z hz => ?_⟩
      rcases List.mem_append.1 hz with hMem | hMem
      · exact hAfter z hMem
      · rw [List.mem_singleton.1 hMem]
        exact hQ

end Since

/-! ## Flags -/

namespace Sink

/-- A sink whose flags say what it was told. -/
class Lawful (σ : Type) [Sink σ] : Prop where
  hadError_report (sink : σ) (d : Diagnostic) : hadError (report sink d) = true
  hadError_reportRuntime (sink : σ) (r : RuntimeReport) :
    hadError (reportRuntime sink r) = hadError sink
  hadError_resetErrors (sink : σ) : hadError (resetErrors sink) = false
  hadRuntimeError_report (sink : σ) (d : Diagnostic) :
    hadRuntimeError (report sink d) = hadRuntimeError sink
  hadRuntimeError_reportRuntime (sink : σ) (r : RuntimeReport) :
    hadRuntimeError (reportRuntime sink r) = true
  hadRuntimeError_resetErrors (sink : σ) :
    hadRuntimeError (resetErrors sink) = hadRuntimeError sink

attribute [simp] Lawful.hadError_report Lawful.hadError_reportRuntime Lawful.hadError_resetErrors
  Lawful.hadRuntimeError_report Lawful.hadRuntimeError_reportRuntime
  Lawful.hadRuntimeError_resetErrors

instance : Lawful Queue where
  hadError_report _ _ := by simp [hadError, report]
  hadError_reportRuntime _ _ := rfl
  hadError_resetErrors _ := rfl
  hadRuntimeError_report _ _ := rfl
  hadRuntimeError_reportRuntime _ _ := by simp [hadRuntimeError, reportRuntime]
  hadRuntimeError_resetErrors _ := rfl

instance : Lawful Terminal where
  hadError_report _ _ := rfl
  hadError_reportRuntime _ _ := rfl
  hadError_resetErrors _ := rfl
  hadRuntimeError_report _ _ := rfl
  hadRuntimeError_reportRuntime _ _ := rfl
  hadRuntimeError_resetErrors _ := rfl

/-- A sink that was told nothing yet. -/
def Fresh {σ : Type} [Sink σ] (sink : σ) : Prop :=
  hadError sink = false ∧ hadRuntimeError sink = false

theorem fresh_queue : Fresh ({} : Queue) :=
  ⟨rfl, rfl⟩

theorem fresh_terminal (mode : ColorMode) (tty : Bool) : Fresh (Terminal.new mode tty) :=
  ⟨rfl, rfl⟩

section Lawful

variable {σ τ : Type} [Sink σ] [Lawful σ] [Sink τ] [Lawful τ]

/-- Any mistake raises the flag, and none lowers it. -/
theorem hadError_reportAll (sink : σ) (ds : List Diagnostic) :
    hadError (reportAll sink ds) = (hadError sink || !ds.isEmpty) := by
  induction ds generalizing sink with
  | nil => simp [reportAll]
  | cons d ds ih =>
      rw [reportAll, List.foldl_cons, ← reportAll, ih]
      simp

@[simp]
theorem hadRuntimeError_reportAll (sink : σ) (ds : List Diagnostic) :
    hadRuntimeError (reportAll sink ds) = hadRuntimeError sink := by
  induction ds generalizing sink with
  | nil => rfl
  | cons d ds ih =>
      rw [reportAll, List.foldl_cons, ← reportAll, ih, Lawful.hadRuntimeError_report]

end Lawful

/-! ## Calls -/

/-- Something that is asked of a sink. -/
inductive Call where
  | report (d : Diagnostic)
  | reportRuntime (r : RuntimeReport)
  | emitRuntime (r : RuntimeReport)
  | resetErrors

/-- The sink after a call. -/
def Call.on {σ : Type} [Sink σ] (sink : σ) : Call → σ
  | .report d => Sink.report sink d
  | .reportRuntime r => Sink.reportRuntime sink r
  | .emitRuntime r => (Sink.emitRuntime sink r).2
  | .resetErrors => Sink.resetErrors sink

/-- The sink after calls in order. -/
def handle {σ : Type} [Sink σ] (sink : σ) (calls : List Call) : σ :=
  calls.foldl Call.on sink

/-- Whether a call reports a mistake. -/
def Call.IsMistake (c : Call) : Prop :=
  ∃ d, c = .report d

/-- Whether a call reports a failed run. -/
def Call.IsFailure (c : Call) : Prop :=
  ∃ r, c = .reportRuntime r ∨ c = .emitRuntime r

section Calls

variable {σ τ : Type} [Sink σ] [Sink τ]

theorem handle_concat (sink : σ) (calls : List Call) (c : Call) :
    handle sink (calls ++ [c]) = c.on (handle sink calls) := by
  rw [handle, List.foldl_append]
  rfl

/-- Two sinks whose flags are the same. -/
def Agree (sink : σ) (sink' : τ) : Prop :=
  hadError sink = hadError sink' ∧ hadRuntimeError sink = hadRuntimeError sink'

theorem Fresh.agree {sink : σ} {sink' : τ} (h : Fresh sink) (h' : Fresh sink') : Agree sink sink' :=
  ⟨h.1.trans h'.1.symm, h.2.trans h'.2.symm⟩

variable [Lawful σ] [Lawful τ]

/-- The flag of mistakes is up if a mistake was reported since it was last lowered. -/
theorem hadError_handle_iff {sink : σ} (h : Fresh sink) (calls : List Call) :
    hadError (handle sink calls) = true ↔
      Since (fun _ c => c.IsMistake) (· = .resetErrors) calls := by
  induction calls using List.reverseRecOn with
  | nil => simp [handle, h.1, not_since_nil]
  | append_singleton calls c ih =>
      rw [handle_concat, since_concat, ← ih]
      cases c <;> simp [Call.on, Call.IsMistake, emitRuntime]

/-- The flag of failed runs is up if one was ever reported. -/
theorem hadRuntimeError_handle_iff {sink : σ} (h : Fresh sink) (calls : List Call) :
    hadRuntimeError (handle sink calls) = true ↔ ∃ c ∈ calls, c.IsFailure := by
  induction calls using List.reverseRecOn with
  | nil => simp [handle, h.2]
  | append_singleton calls c ih =>
      rw [handle_concat]
      simp only [List.mem_append, List.mem_singleton, or_and_right, exists_or, exists_eq_left, ← ih]
      cases c <;> simp [Call.on, Call.IsFailure, emitRuntime]

namespace Agree

variable {sink : σ} {sink' : τ}

theorem on (h : Agree sink sink') (c : Call) : Agree (c.on sink) (c.on sink') := by
  cases c <;> simp [Agree, Call.on, emitRuntime, h.1, h.2]

/-- The same calls keep the flags the same. -/
theorem handle (h : Agree sink sink') (calls : List Call) :
    Agree (Sink.handle sink calls) (Sink.handle sink' calls) := by
  induction calls generalizing sink sink' with
  | nil => exact h
  | cons c calls ih => exact ih (h.on c)

theorem reportAll (h : Agree sink sink') (ds : List Diagnostic) :
    Agree (Sink.reportAll sink ds) (Sink.reportAll sink' ds) := by
  simp [Agree, hadError_reportAll, h.1, h.2]

end Agree

end Calls

end Sink

/-! ## What a terminal writes -/

/-- What a piece of a report is. -/
inductive Ink where
  | marker
  | label
  | plain
deriving DecidableEq, Repr

/-- A piece of a report. -/
structure Fragment where
  ink : Ink
  text : String
deriving DecidableEq, Repr

/-- A piece of a report as it is written: in colours, a line marker is bold blue and a label
bold red. -/
def Fragment.shown (colors : Bool) (f : Fragment) : String :=
  match colors, f.ink with
  | true, .marker => "\x1b[1;34m" ++ f.text ++ "\x1b[0m"
  | true, .label => "\x1b[1;31m" ++ f.text ++ "\x1b[0m"
  | _, _ => f.text

namespace Sink.Call

/-- The pieces of a report that starts on a line and goes on as given. -/
def pieces (line : Nat) (details : String) : List Fragment :=
  [⟨.marker, "[line " ++ toString line ++ "]"⟩, ⟨.plain, " "⟩, ⟨.label, "Error"⟩, ⟨.plain, details⟩]

/-- The pieces that a call has a terminal write. -/
def fragments : Call → List Fragment
  | .report d => pieces d.line (d.place.text ++ ": " ++ d.message ++ "\n")
  | .reportRuntime r | .emitRuntime r =>
    pieces r.line (" at '" ++ r.lexeme ++ "'\n" ++ r.message ++ "\n")
  | .resetErrors => []

/-- The text that a call has a terminal write without colours. -/
def text : Call → String
  | .report d => d.text ++ "\n"
  | .reportRuntime r | .emitRuntime r =>
    "[line " ++ toString r.line ++ "] Error at '" ++ r.lexeme ++ "'\n" ++ r.message ++ "\n"
  | .resetErrors => ""

/-- A report starts with its line marker and its label, in the colours of the palette. -/
theorem join_pieces (colors : Bool) (line : Nat) (details : String) :
    String.join ((pieces line details).map (Fragment.shown colors)) =
      (if colors then Palette.ansi else .plain).heading line ++ details := by
  cases colors <;>
    simp only [pieces, List.map_cons, List.map_nil, Fragment.shown, String.join_cons,
      String.join_nil, Palette.heading, Diagnostic.lineMarker, Palette.ansi, Palette.plain,
      Bool.false_eq_true, if_true, if_false, String.append_assoc, String.append_empty,
      String.empty_append]

theorem heading_plain (line : Nat) :
    Palette.plain.heading line = "[line " ++ toString line ++ "] Error" := by
  have hLabel : "]" ++ (" " ++ "Error") = "] Error" := rfl
  simp only [Palette.heading, Palette.plain, Diagnostic.lineMarker, String.append_assoc,
    String.append_empty, String.empty_append, hLabel]

/-- Without colours, the pieces of a call are its text. -/
theorem join_fragments (c : Call) :
    String.join (c.fragments.map (Fragment.shown false)) = c.text := by
  have hMark : "]" ++ " Error" = "] Error" := rfl
  have hPlace : "] Error" ++ " at '" = "] Error at '" := rfl
  cases c with
  | report d =>
      simp only [fragments, join_pieces, text, Diagnostic.text, Diagnostic.lineMarker,
        heading_plain, Bool.false_eq_true, if_false, String.append_assoc, ← hMark]
  | reportRuntime r | emitRuntime r =>
      simp only [fragments, join_pieces, text, heading_plain, Bool.false_eq_true, if_false,
        String.append_assoc, ← hPlace]
  | resetErrors => rfl

/-- Without colours, the pieces of calls are the texts of the calls, one after the other. -/
theorem join_flatMap_fragments (calls : List Call) :
    String.join ((calls.flatMap fragments).map (Fragment.shown false)) =
      String.join (calls.map text) := by
  induction calls with
  | nil => rfl
  | cons c calls ih =>
      rw [List.flatMap_cons, List.map_append, String.join_append, ih, join_fragments, List.map_cons,
        String.join_cons]

end Sink.Call

namespace Terminal

open Sink (Call handle)

/-- Whether a terminal writes in colours, or does not. -/
def Colored (t : Terminal) (colors : Bool) : Prop :=
  t.palette = if colors then .ansi else .plain

theorem colored_new (mode : ColorMode) (tty : Bool) :
    (new mode tty).Colored (mode.useColors tty) :=
  rfl

theorem Colored.on {t : Terminal} {colors : Bool} (h : t.Colored colors) (c : Call) :
    Colored (c.on t) colors := by
  cases c <;> exact h

/-- A call has its pieces written behind what was written before. -/
theorem written_on {t : Terminal} {colors : Bool} (h : t.Colored colors) (c : Call) :
    (c.on t).written = t.written ++ String.join (c.fragments.map (Fragment.shown colors)) := by
  have hPalette : t.palette = if colors then .ansi else .plain := h
  cases c with
  | report d =>
      simp only [Call.fragments, Call.join_pieces, ← hPalette, String.append_assoc]
      simp only [Call.on, Sink.report, Palette.diagnosticText, String.append_assoc]
  | reportRuntime r | emitRuntime r =>
      simp only [Call.fragments, Call.join_pieces, ← hPalette, String.append_assoc]
      simp only [Call.on, Sink.emitRuntime, Sink.reportRuntime, Palette.runtimeText,
        String.append_assoc]
  | resetErrors => exact String.append_empty.symm

/-- What a terminal writes for calls is the pieces of the calls, in order. -/
theorem written_handle {t : Terminal} {colors : Bool} (h : t.Colored colors) (calls : List Call) :
    (handle t calls).written =
      t.written ++ String.join ((calls.flatMap Call.fragments).map (Fragment.shown colors)) := by
  induction calls generalizing t with
  | nil => simp [handle]
  | cons c calls ih =>
      have hFirst : (c.on t).written = _ := written_on h c
      have hRest : (handle (c.on t) calls).written = _ := ih (h.on c)
      rw [List.flatMap_cons, List.map_append, String.join_append, ← String.append_assoc, ← hFirst]
      exact hRest

end Terminal

end TinyScript
