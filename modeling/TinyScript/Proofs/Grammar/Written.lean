import Mathlib.Data.List.TakeWhile
import TinyScript.Proofs.Grammar.Completeness
import TinyScript.Proofs.Grammar.Soundness
import TinyScript.Proofs.Grammar.WellFormed

/-!
# Tokens that write out a program

Tokens write out a program if the program is well formed and its marks are fitted by the
tokens, one by one. This is what reading without a mistake comes to, and it mentions
neither the reading nor what follows the tokens. So a program that was once read without
a mistake is read in front of other tokens just the same.

## Main results

* `parse_append_of_items`: tokens whose items do not depend on what follows them.
* `written_parse`: what is read without a mistake is written out by its tokens.
* `Written.parse_append`: programs are read in front of whatever follows them.
* `parse_finished_append`: so are tokens that were once read without a mistake.
-/

namespace TinyScript.Grammar

/-- The tokens write out the program. -/
structure Written (p : List Stmt) (ts : List Token) : Prop where
  wellFormed : Stmt.WellFormedAll p
  fits : List.Forall₂ Mark.Fits (Stmt.marksAll p) ts

variable {p : List Stmt} {ts : List Token}

/-! ## Tokens without an end mark -/

theorem beforeEnd_append (h : ∀ t ∈ ts, t.kind ≠ .endOfFile) (rest : List Token) :
    beforeEnd (ts ++ rest) = ts ++ beforeEnd rest :=
  List.takeWhile_append_of_pos fun t ht => by simpa using h t ht

theorem beforeEnd_eq_self (h : ∀ t ∈ ts, t.kind ≠ .endOfFile) : beforeEnd ts = ts :=
  List.takeWhile_eq_self_iff.2 fun t ht => by simpa using h t ht

/-- The end of the tokens is that of the last part of them. -/
theorem endLineOf_append (h : ∀ t ∈ ts, t.kind ≠ .endOfFile) {rest : List Token}
    (hRest : rest ≠ []) : endLineOf (ts ++ rest) = endLineOf rest := by
  have hFind : (ts ++ rest).find? (·.kind = .endOfFile) = rest.find? (·.kind = .endOfFile) := by
    have hNone : ts.find? (·.kind = .endOfFile) = none := by
      simpa using h
    rw [List.find?_append, hNone, Option.none_or]
  have hLast : (ts ++ rest).getLast? = rest.getLast? := by
    rw [List.getLast?_append_of_ne_nil _ hRest]
  rw [endLineOf, endLineOf, hFind, hLast]

/-- Tokens that make the same items in front of all others are read first, and what follows
them is read as it is on its own. -/
theorem parse_append_of_items {front : List Item} (h : ∀ t ∈ ts, t.kind ≠ .endOfFile)
    (hItems : ∀ endLine rest,
      (items endLine false (ts ++ rest)).1 = front ++ (items endLine false rest).1)
    (rest : List Token) :
    parse (ts ++ rest) = ⟨front.filterMap Item.stmt? ++ (parse rest).program,
      front.flatMap Item.reports ++ (parse rest).diagnostics⟩ := by
  have hBoth : (items (endLineOf (ts ++ rest)) false (beforeEnd (ts ++ rest))).1 =
      front ++ (items (endLineOf rest) false (beforeEnd rest)).1 := by
    rw [beforeEnd_append h, hItems]
    by_cases hRest : rest = []
    · -- Nothing follows, so it does not matter where the end is.
      subst hRest
      simp [beforeEnd, items_nil]
    · rw [endLineOf_append h hRest]
  simp only [parse, hBoth, List.filterMap_append, List.flatMap_append]

/-! ## Reading what is written out -/

/-- What is read without a mistake is written out by the tokens before the end mark. -/
theorem written_parse (h : (parse ts).diagnostics = []) :
    Written (parse ts).program (beforeEnd ts) :=
  ⟨Stmt.wellFormedAll_iff.2 (wellFormed_program ts), (passage_parse ts).accounts.all h⟩

namespace Written

/-- No end mark is among the tokens of a program. -/
theorem kind_ne (h : Written p ts) : ∀ t ∈ ts, t.kind ≠ .endOfFile := by
  have hBefore : beforeEnd (ts ++ [Token.endOfFile 0]) = ts :=
    beforeEnd_of_fits h.fits (isInner_stmts p h.wellFormed) rfl
  intro t ht
  rw [← hBefore] at ht
  simpa using List.mem_takeWhile_imp ht

/-- A program is read in front of whatever follows it, which is read as it is on its own. -/
theorem parse_append (h : Written p ts) (rest : List Token) :
    parse (ts ++ rest) = ⟨p ++ (parse rest).program, (parse rest).diagnostics⟩ := by
  have hItems : ∀ endLine us,
      (items endLine false (ts ++ us)).1 = p.map Item.kept ++ (items endLine false us).1 := by
    intro endLine us
    rw [items_of_fits p h.wellFormed h.fits]
  rw [parse_append_of_items h.kind_ne hItems, filterMap_kept, flatMap_kept, List.nil_append]

end Written

theorem parse_of_beforeEnd_eq_nil (h : beforeEnd ts = []) : parse ts = ⟨[], []⟩ := by
  simp only [parse, h, items_nil]
  rfl

/--
**Finished statements do not depend on what follows.** Tokens without an end mark that are
read without a mistake give the same statements in front of all other tokens, and these
are read as they are on their own, whether there is a mistake in them or not.
-/
theorem parse_finished_append {a : List Token} (hInner : ∀ t ∈ a, t.kind ≠ .endOfFile)
    (hClean : (parse a).diagnostics = []) (b : List Token) :
    (parse (a ++ b)).program = (parse a).program ++ (parse b).program ∧
      (parse (a ++ b)).diagnostics = (parse b).diagnostics := by
  have hWritten : Written (parse a).program a := by
    have hBefore := written_parse hClean
    rwa [beforeEnd_eq_self hInner] at hBefore
  have hBoth := hWritten.parse_append b
  constructor
  · rw [hBoth]
  · rw [hBoth]

/-- `var a = b ? (c, d) : -b; { print a; }` in front of `) print = ? }`. -/
theorem parse_finished_append_garbage :
    let a : List Token :=
      [⟨.kwVar, "var", none, 1⟩, ⟨.identifier, "a", none, 1⟩, ⟨.equal, "=", none, 1⟩,
        ⟨.identifier, "b", none, 1⟩, ⟨.question, "?", none, 1⟩, ⟨.leftParen, "(", none, 1⟩,
        ⟨.identifier, "c", none, 1⟩, ⟨.comma, ",", none, 1⟩, ⟨.identifier, "d", none, 1⟩,
        ⟨.rightParen, ")", none, 1⟩, ⟨.colon, ":", none, 1⟩, ⟨.minus, "-", none, 1⟩,
        ⟨.identifier, "b", none, 1⟩, ⟨.semicolon, ";", none, 1⟩, ⟨.leftBrace, "\x7b", none, 2⟩,
        ⟨.kwPrint, "print", none, 2⟩, ⟨.identifier, "a", none, 2⟩, ⟨.semicolon, ";", none, 2⟩,
        ⟨.rightBrace, "\x7d", none, 2⟩]
    let b : List Token :=
      [⟨.rightParen, ")", none, 3⟩, ⟨.kwPrint, "print", none, 3⟩, ⟨.equal, "=", none, 3⟩,
        ⟨.question, "?", none, 3⟩, ⟨.rightBrace, "\x7d", none, 3⟩, .endOfFile 4]
    (∀ t ∈ a, t.kind ≠ .endOfFile) ∧ (parse a).diagnostics = [] ∧
      (parse (a ++ b)).program = (parse a).program ++ (parse b).program ∧
      (parse (a ++ b)).diagnostics = (parse b).diagnostics := by
  intro a b
  have hInner : ∀ t ∈ a, t.kind ≠ .endOfFile := by decide
  have hWritten : Written
      [.declare ⟨⟨.identifier, "a", none, 1⟩, some (.conditional
          (.variable ⟨.identifier, "b", none, 1⟩)
          (.group (.comma (.variable ⟨.identifier, "c", none, 1⟩)
            (.variable ⟨.identifier, "d", none, 1⟩)))
          (.unary .neg ⟨.minus, "-", none, 1⟩ (.variable ⟨.identifier, "b", none, 1⟩)))⟩,
        .block [.print (.variable ⟨.identifier, "a", none, 2⟩)]] a :=
    ⟨Stmt.wellFormedAll_iff.2 (by decide), by
      simp [a, Stmt.marksAll, Stmt.marks, Declaration.marks, Expr.marks, Mark.Fits]⟩
  have hClean : (parse a).diagnostics = [] := by
    have hAlone := hWritten.parse_append []
    rw [List.append_nil] at hAlone
    rw [hAlone, parse_of_beforeEnd_eq_nil rfl]
  exact ⟨hInner, hClean, parse_finished_append hInner hClean b⟩

end TinyScript.Grammar
