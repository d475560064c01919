import Mathlib
import TinyScript.Number.Text

/-!
# Sign and magnitude of a number

A number is its bit pattern, and a bit pattern is a sign in front of a magnitude. Packing a
number takes it apart into a sign, an exponent and a mantissa; here the three are related
to the natural numbers `magnitude` works with, so that the rest of the theory of numbers
is about natural numbers only.

The many patterns of NaN stand for one number, so not every pattern is packed faithfully.
Statements about negation therefore keep to finite numbers.

## Main results

* `isFinite_iff`: a number is finite if and only if its magnitude is below infinity.
* `ofBits_magnitude`: a number without a sign is its magnitude.
* `magnitude_neg`, `isNegative_neg`, `neg_neg_of_isFinite`: negation changes the sign and
  nothing else.
-/

namespace TinyScript.Number

open Float.Model (Format)
open Float.Model.UnpackedFloat

/-! ## Patterns -/

theorem toNat_packComponents (s : Sign) (e : BitVec 11) (m : BitVec 52) :
    (packComponents .binary64 s e m).toNat =
      s.toBitVec.toNat * 2 ^ 63 + e.toNat * 2 ^ 52 + m.toNat := by
  change (s.toBitVec ++ e ++ m).toNat = _
  rw [BitVec.toNat_append, BitVec.toNat_append, ← Nat.shiftLeft_add_eq_or_of_lt e.isLt,
    ← Nat.shiftLeft_add_eq_or_of_lt m.isLt, Nat.shiftLeft_eq, Nat.shiftLeft_eq]
  omega

theorem toNat_unpackExponent (b : BitVec Format.binary64.numBits) :
    (unpackExponent b).toNat = b.toNat / 2 ^ 52 % 2 ^ 11 := by
  change b.toNat >>> 52 % 2 ^ 11 = _
  rw [Nat.shiftRight_eq_div_pow]

theorem isFinite_unpack (b : BitVec Format.binary64.numBits) :
    (unpack .binary64 b).isFinite = true ↔ unpackExponent b ≠ -1#11 := by
  unfold unpack
  simp only
  split
  · next hExponent => split <;> simp [hExponent, Float.Model.UnpackedFloat.isFinite]
  · split
    · split <;> simp_all [Float.Model.UnpackedFloat.isFinite]
    · simp_all [Float.Model.UnpackedFloat.isFinite]

/-- Negation replaces the sign and keeps the other two parts. -/
theorem neg_unpack_packComponents (s : Sign) (e : BitVec 11) (m : BitVec 52) :
    (unpack .binary64 (packComponents .binary64 s e m)).neg =
      unpack .binary64 (packComponents .binary64 (-s) e m) := by
  unfold unpack
  simp only [unpackMantissa_packComponents, unpackExponent_packComponents,
    unpackSign_packComponents, Sign.ofBitVec_toBitVec]
  split
  · split <;> rfl
  · split
    · split <;> rfl
    · rfl

/-- The pattern of a finite number survives unpacking and packing. -/
theorem pack_unpack_of_finite {b : BitVec Format.binary64.numBits}
    (hFinite : unpackExponent b ≠ -1#11) : pack .binary64 (unpack .binary64 b) = b := by
  rw [pack_unpack, if_neg]
  intro hNaN
  exact hFinite (of_decide_eq_true hNaN).1

/-! ## Numbers -/

variable {x y : Float}

theorem isNegative_iff : isNegative x = true ↔ 2 ^ 63 ≤ x.toBits.toNat :=
  decide_eq_true_iff

/-- A number is known by its sign and its magnitude. -/
theorem eq_of_magnitude_eq (hSign : isNegative x = isNegative y)
    (hMagnitude : magnitude x = magnitude y) : x = y := by
  have hx := x.toBits.toNat_lt
  have hy := y.toBits.toNat_lt
  rw [Bool.eq_iff_iff, isNegative_iff, isNegative_iff] at hSign
  unfold magnitude Binary64.signBit at hMagnitude
  apply Float.toBits_inj.mp
  apply UInt64.toNat_inj.mp
  omega

/-- A number is finite if and only if its magnitude is below infinity. -/
theorem isFinite_iff : x.isFinite = true ↔ magnitude x < Binary64.infinity := by
  have hUnpack := isFinite_unpack x.toBits.toBitVec
  have hExponent := toNat_unpackExponent x.toBits.toBitVec
  rw [ne_eq, ← BitVec.toNat_inj, hExponent] at hUnpack
  change x.isFinite = true ↔ ¬x.toBits.toNat / 2 ^ 52 % 2 ^ 11 = 2047 at hUnpack
  rw [hUnpack]
  unfold magnitude Binary64.infinity Binary64.signBit Binary64.hiddenBit
  omega

theorem isNaN_of_isFinite (hFinite : x.isFinite = true) : x.isNaN = false := by
  rw [Float.isNaN_eq_decide_eq_nan, decide_eq_false_iff_not]
  rintro rfl
  exact absurd hFinite (by decide)

/-- A number without a sign is its magnitude. -/
theorem ofBits_magnitude (hSign : isNegative x = false) :
    Float.ofBits (magnitude x).toUInt64 = x := by
  have hBits : (magnitude x).toUInt64 = x.toBits := by
    rw [Bool.eq_false_iff, ne_eq, isNegative_iff] at hSign
    apply UInt64.toNat_inj.mp
    rw [Nat.toUInt64_eq, UInt64.toNat_ofNat', magnitude, Binary64.signBit]
    omega
  rw [hBits, Float.ofBits_toBits]

/-- A pattern without a sign is a number without a sign, also if it is one of the many of NaN. -/
theorem isNegative_ofBits {b : UInt64} (h : b.toNat < 2 ^ 63) :
    isNegative (Float.ofBits b) = false := by
  have hBits : (Float.ofBits b).toBits.toBitVec =
      if @isNaNBits .binary64 b.toBitVec = true then packedNaN .binary64 else b.toBitVec :=
    @pack_unpack .binary64 b.toBitVec (by decide)
  rw [Bool.eq_false_iff, ne_eq, isNegative_iff, ← UInt64.toNat_toBitVec, hBits]
  split
  · decide
  · rw [UInt64.toNat_toBitVec]
    omega

/-- Negation flips the bit of the sign. -/
theorem toNat_toBits_neg (hFinite : x.isFinite = true) :
    (-x).toBits.toNat = (x.toBits.toNat + 2 ^ 63) % 2 ^ 64 := by
  obtain ⟨s, e, m, hBits⟩ : ∃ s e m, x.toBits.toBitVec = packComponents .binary64 s e m :=
    ⟨_, _, _, (@packComponents_unpackSign_unpackExponent_unpackMantissa .binary64 _).symm⟩
  have hExponent := (isFinite_unpack x.toBits.toBitVec).mp hFinite
  rw [hBits, unpackExponent_packComponents] at hExponent
  have hNeg : (-x).toBits.toBitVec = packComponents .binary64 (-s) e m := by
    change pack .binary64 (unpack .binary64 x.toBits.toBitVec).neg = _
    rw [hBits, neg_unpack_packComponents, pack_unpack_of_finite]
    rwa [unpackExponent_packComponents]
  have hExponentLt : e.toNat < 2 ^ 11 := e.isLt
  have hMantissaLt : m.toNat < 2 ^ 52 := m.isLt
  rw [← UInt64.toNat_toBitVec, ← UInt64.toNat_toBitVec, hNeg, hBits, toNat_packComponents,
    toNat_packComponents]
  cases s with
  | negative =>
    change 0 * _ + _ + _ = (1 * _ + _ + _ + _) % _
    omega
  | positive =>
    change 1 * _ + _ + _ = (0 * _ + _ + _ + _) % _
    omega

theorem magnitude_neg (hFinite : x.isFinite = true) : magnitude (-x) = magnitude x := by
  have hLt := x.toBits.toNat_lt
  rw [magnitude, magnitude, toNat_toBits_neg hFinite, Binary64.signBit]
  omega

theorem isNegative_neg (hFinite : x.isFinite = true) : isNegative (-x) = !isNegative x := by
  have hLt := x.toBits.toNat_lt
  rw [Bool.eq_iff_iff, isNegative_iff, toNat_toBits_neg hFinite, Bool.not_eq_true',
    Bool.eq_false_iff, ne_eq, isNegative_iff]
  omega

theorem isFinite_neg (hFinite : x.isFinite = true) : (-x).isFinite = true := by
  rw [isFinite_iff, magnitude_neg hFinite]
  exact isFinite_iff.mp hFinite

theorem neg_neg_of_isFinite (hFinite : x.isFinite = true) : -(-x) = x := by
  have hNeg := isFinite_neg hFinite
  apply eq_of_magnitude_eq
  · rw [isNegative_neg hNeg, isNegative_neg hFinite, Bool.not_not]
  · rw [magnitude_neg hNeg, magnitude_neg hFinite]

end TinyScript.Number
