import TinyScript.Number.Binary64

/-!
# Decimal numbers

A decimal is a coefficient and a power of ten. It is what number literals are
read into, and what the fewest-digits search produces; the two written forms,
positional and scientific, are functions of it.

Main definitions:

* `Decimal.ofDigits`: a literal's digits before and after its point;
* `Decimal.toBits`: the binary64 magnitude nearest to a decimal;
* `Decimal.shortest`: the decimal with the fewest digits that reads back;
* `Decimal.positional`, `Decimal.scientific`: written forms.
-/

namespace TinyScript

/-- The number `coefficient · 10ᵉ` with `e` the exponent. -/
structure Decimal where
  coefficient : Nat
  exponent : Int
deriving DecidableEq, Repr

namespace Decimal

/-- The decimal written with the digits `whole`, a point and the digits `fraction`. -/
def ofDigits (whole fraction : List Char) : Decimal :=
  ⟨Nat.ofDigitChars 10 (whole ++ fraction) 0, -(fraction.length : Int)⟩

/-- A decimal as a quotient of natural numbers. -/
def ratio (d : Decimal) : Nat × Nat :=
  match d.exponent with
  | .ofNat e => (d.coefficient * Nat.pow 10 e, 1)
  | .negSucc e => (d.coefficient, Nat.pow 10 (e + 1))

/-- Bit pattern of the binary64 magnitude nearest to a decimal. -/
def toBits (d : Decimal) : Nat :=
  Binary64.nearest d.ratio.1 d.ratio.2

/-- The binary64 number nearest to a decimal. -/
def toFloat (d : Decimal) : Float :=
  Float.ofBits d.toBits.toUInt64

/-! ## Fewest digits -/

/-- Number of decimal digits of `n`, at least one. -/
def digitCount (n : Nat) : Nat :=
  if n < 10 then 1 else digitCount (n / 10) + 1

/-- Moves trailing zeros of the coefficient into the exponent; zero gets the exponent zero. -/
def trim (d : Decimal) : Decimal :=
  if hZero : d.coefficient = 0 then
    ⟨0, 0⟩
  else if d.coefficient % 10 = 0 then
    trim ⟨d.coefficient / 10, d.exponent + 1⟩
  else
    d
termination_by d.coefficient
decreasing_by exact Nat.div_lt_self (Nat.pos_of_ne_zero hZero) (by decide)

/--
The better of the two neighbours of a magnitude on the grid that drops `dropped` of
its digits, among those that read back. The nearer one is tried first, and the larger
one when both are equally near.
-/
def onGrid (bits dropped : Nat) : Option Decimal :=
  let exact := Binary64.units bits
  let step := Nat.pow 10 dropped
  let place : Int := (dropped : Int) - 1074
  let below : Decimal := ⟨exact / step, place⟩
  let above : Decimal := ⟨exact / step + 1, place⟩
  let neighbours := if 2 * (exact % step) < step then [below, above] else [above, below]
  neighbours.find? fun d => d.toBits == bits

/--
The decimal with the fewest digits that reads back as the given finite magnitude. Grids
are tried from one digit up; the last one holds every digit and is always exact.
-/
def shortest (bits : Nat) : Decimal :=
  let exact := Binary64.units bits
  let count := digitCount exact
  let found := (List.range count).findSome? fun n => onGrid bits (count - 1 - n)
  (found.getD ⟨exact, -1074⟩).trim

/-! ## Written forms -/

/-- Digits of `n`, padded with zeros on the left to `width` places. -/
def paddedDigits (width n : Nat) : List Char :=
  let digits := Nat.toDigits 10 n
  List.replicate (width - digits.length) '0' ++ digits

/-- Every digit in its place: `1200`, `0.0012`. No point stands in a whole number. -/
def positional (d : Decimal) : List Char :=
  match d.exponent with
  | .ofNat e => Nat.toDigits 10 (d.coefficient * Nat.pow 10 e)
  | .negSucc e =>
    let step := Nat.pow 10 (e + 1)
    Nat.toDigits 10 (d.coefficient / step) ++ '.' :: paddedDigits (e + 1) (d.coefficient % step)

/-- Power of ten of the leading digit. -/
def leadingExponent (d : Decimal) : Int :=
  d.exponent + digitCount d.coefficient - 1

/-- One digit, a point and the other digits if there are any, and the exponent: `1.5e-7`. -/
def scientific (d : Decimal) : List Char :=
  let mantissa := match Nat.toDigits 10 d.coefficient with
    | first :: second :: rest => first :: '.' :: second :: rest
    | digits => digits
  mantissa ++ 'e' :: (toString d.leadingExponent).toList

end Decimal

end TinyScript
