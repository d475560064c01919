import TinyScript.Number.Decimal

/-!
# The two texts of a number

A number has a *display form*, used by `print`, by concatenation and by the
prompt's echo, and a *literal form*, used where syntax trees and tokens are shown.
Both write the fewest digits that read back. The display form is always
positional; the literal form always has a fraction digit or an exponent.
-/

namespace TinyScript.Number

/-- Whether the sign bit is set; a negative zero is negative. -/
def isNegative (x : Float) : Bool :=
  Binary64.signBit ≤ x.toBits.toNat

/-- Bit pattern without its sign. -/
def magnitude (x : Float) : Nat :=
  x.toBits.toNat % Binary64.signBit

/-- Writes the sign and either a finite magnitude by `finite` or the word for infinity. -/
def signed (x : Float) (finite : Nat → List Char) : String :=
  if x.isNaN then
    "NaN"
  else
    let bits := magnitude x
    let body := if bits < Binary64.infinity then finite bits else "inf".toList
    String.ofList (if isNegative x then '-' :: body else body)

/-- Display form of a finite magnitude. -/
def displayDigits (bits : Nat) : List Char :=
  (Decimal.shortest bits).positional

/--
Literal form of a finite magnitude: positional with at least one fraction digit from
`10⁻⁴` up to but excluding `10¹⁶`, and for zero; scientific otherwise.
-/
def literalDigits (bits : Nat) : List Char :=
  let d := Decimal.shortest bits
  if d.coefficient = 0 ∨ (-4 ≤ d.leadingExponent ∧ d.leadingExponent < 16) then
    match d.exponent with
    | .ofNat _ => d.positional ++ ['.', '0']
    | .negSucc _ => d.positional
  else
    d.scientific

/-- Text of a number in printed output. -/
def display (x : Float) : String :=
  signed x displayDigits

/-- Text of a number in a syntax tree or a token. -/
def literal (x : Float) : String :=
  signed x literalDigits

end TinyScript.Number
