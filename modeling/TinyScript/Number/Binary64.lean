/-!
# Binary64 magnitudes as natural numbers

A finite, non-negative binary64 number is a whole multiple of `2⁻¹⁰⁷⁴`, the
smallest subnormal. Its bit pattern splits into a significand `m < 2⁵³` and a
shift `s`, and the number is `m · 2ˢ / 2¹⁰⁷⁴`; in the other direction the bit
pattern is simply `s · 2⁵² + m`. That one equation covers subnormals, normals
and the carry out of a rounded significand, so rounding a quotient of natural
numbers needs no case split on the size of the result.

Main definitions:

* `significand`, `shift`: the two parts of a bit pattern;
* `nearest`: the bit pattern nearest to a quotient, ties to even;
* `units`: the number as a multiple of `10⁻¹⁰⁷⁴`, which is always exact.
-/

namespace TinyScript.Binary64

/-- The weight `2⁵²` of the implicit bit of a significand, and of the exponent's lowest bit. -/
def hiddenBit : Nat := 4503599627370496

/-- The weight `2⁶³` of the sign bit. -/
def signBit : Nat := 9223372036854775808

/-- Bit pattern of positive infinity: every finite magnitude lies below it. -/
def infinity : Nat := 2047 * hiddenBit

/-- Integral significand of a magnitude, with the implicit bit made explicit. -/
def significand (bits : Nat) : Nat :=
  if bits < hiddenBit then bits else bits % hiddenBit + hiddenBit

/-- Power of two that scales the significand, counted from the smallest subnormal. -/
def shift (bits : Nat) : Nat :=
  bits / hiddenBit - 1

/-- A bit pattern is recovered from its two parts by one multiplication and one addition. -/
theorem shift_mul_add_significand (bits : Nat) :
    shift bits * hiddenBit + significand bits = bits := by
  unfold shift significand hiddenBit
  split <;> omega

/-- Nearest natural number to `num / den`; a half goes to the even neighbour. -/
def roundQuotient (num den : Nat) : Nat :=
  let below := num / den
  let twice := 2 * (num % den)
  if twice < den then below
  else if den < twice then below + 1
  else if below % 2 = 0 then below
  else below + 1

/-- An exact quotient is its own rounding. -/
theorem roundQuotient_mul_right (n den : Nat) (hDen : 0 < den) :
    roundQuotient (n * den) den = n := by
  simp [roundQuotient, Nat.mul_div_cancel n hDen, hDen]

/--
Bit pattern of the magnitude nearest to `num / den`, ties to even, infinity when
the quotient is too large. The shift is the least one that brings the significand
below `2⁵³`; a significand that rounds up to `2⁵³` carries into the shift by itself.
-/
def nearest (num den : Nat) : Nat :=
  let scaled := num * Nat.pow 2 1074
  let exponent := Nat.log2 (scaled / den) - 52
  min (exponent * hiddenBit + roundQuotient scaled (den * Nat.pow 2 exponent)) infinity

/--
A finite magnitude as a whole number of `10⁻¹⁰⁷⁴`. Since `10¹⁰⁷⁴ = 2¹⁰⁷⁴ · 5¹⁰⁷⁴`,
no digit is lost.
-/
def units (bits : Nat) : Nat :=
  significand bits * Nat.pow 2 (shift bits) * Nat.pow 5 1074

end TinyScript.Binary64
