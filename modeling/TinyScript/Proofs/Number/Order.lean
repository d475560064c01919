import TinyScript.Proofs.Number.Bits

/-!
# The order of numbers

Numbers are compared kind by kind, and finite ones by exponent and mantissa. A magnitude has
its exponent in front of its mantissa, so comparing these two is comparing magnitudes, and
with the sign in front of it the magnitude is a whole number that says where a number stands
among the others (`position`). Both zeros stand at the same place, the infinities at the ends,
and NaN stands nowhere.

## Main results

* `standsAt_position`: the position of every number but NaN.
* `lt_iff_position`, `beq_iff_position`: numbers compare as their positions do.
* `compare_of_isNaN`: nothing compares with NaN.
-/

namespace TinyScript.Number

open Float.Model (Format UnpackedFloat)
open Float.Model.UnpackedFloat

/-- Where a number stands among the others: its magnitude, with its sign. -/
def position (x : Float) : Int :=
  if isNegative x then -(magnitude x : Int) else magnitude x

/--
`StandsAt u p`: the unpacked number `u` has the position `p`. The mantissa of a finite number is
at least `2⁵²`, unless its exponent is the least one.
-/
inductive StandsAt : UnpackedFloat → Int → Prop
  | infinity (s : Sign) : StandsAt (.infinity s) (s.apply Binary64.infinity)
  | zero (s : Sign) : StandsAt (.zero s) 0
  | finite (s : Sign) {m shift : Nat} {e : Int} (hPos : 0 < m) (hShift : e = shift - 1074)
    (hLt : m < 2 ^ 53) (hNormal : 0 < shift → 2 ^ 52 ≤ m)
    (hFinite : shift * 2 ^ 52 + m < Binary64.infinity) :
    StandsAt (.finite s m e hPos) (s.apply (shift * 2 ^ 52 + m : Nat))

/-! ## Comparing positions -/

theorem some_lt_eq_compare {p q : Int} (h : p < q) : some .lt = some (compare p q) := by
  rw [Int.compare_eq_lt.2 h]

theorem some_gt_eq_compare {p q : Int} (h : q < p) : some .gt = some (compare p q) := by
  rw [Int.compare_eq_gt.2 h]

theorem compare_neg_neg (p q : Int) : compare (-p) (-q) = (compare p q).swap := by
  rcases lt_trichotomy p q with hLt | rfl | hGt
  · rw [Int.compare_eq_lt.2 hLt, Int.compare_eq_gt.2 (by omega)]
    rfl
  · simp
  · rw [Int.compare_eq_gt.2 hGt, Int.compare_eq_lt.2 (by omega)]
    rfl

/-- Comparing exponents first and then mantissas is comparing magnitudes. -/
theorem compare_then_compare {m n s t : Nat} (hm : m < 2 ^ 53) (hn : n < 2 ^ 53)
    (hs : 0 < s → 2 ^ 52 ≤ m) (ht : 0 < t → 2 ^ 52 ≤ n) :
    (compare ((s : Int) - 1074) (t - 1074)).then (compare m n) =
      compare ((s * 2 ^ 52 + m : Nat) : Int) (t * 2 ^ 52 + n : Nat) := by
  rcases Nat.lt_trichotomy s t with hLt | rfl | hGt
  · rw [Int.compare_eq_lt.2 (by omega), Int.compare_eq_lt.2 (by omega)]
    rfl
  · rw [Int.compare_eq_eq.2 rfl, Ordering.eq_then]
    rcases Nat.lt_trichotomy m n with hLt | rfl | hGt
    · rw [Nat.compare_eq_lt.2 hLt, Int.compare_eq_lt.2 (by omega)]
    · rw [Nat.compare_eq_eq.2 rfl, Int.compare_eq_eq.2 rfl]
    · rw [Nat.compare_eq_gt.2 hGt, Int.compare_eq_gt.2 (by omega)]
  · rw [Int.compare_eq_gt.2 (by omega), Int.compare_eq_gt.2 (by omega)]
    rfl

/-- Unpacked numbers compare as their positions do. -/
theorem StandsAt.compare_eq {u v : UnpackedFloat} {p q : Int} (hu : StandsAt u p)
    (hv : StandsAt v q) : u.compare v = some (compare p q) := by
  have hInfinity : 0 < Binary64.infinity := by decide
  cases hu with
  | infinity s =>
      cases hv with
      | infinity s' => cases s <;> cases s' <;> decide
      | zero s' => cases s <;> cases s' <;> decide
      | finite s' hPos hShift hLt hNormal hFinite =>
          cases s <;> cases s' <;> simp only [Sign.apply]
          · exact some_lt_eq_compare (by omega)
          · exact some_lt_eq_compare (by omega)
          · exact some_gt_eq_compare (by omega)
          · exact some_gt_eq_compare (by omega)
  | zero s =>
      cases hv with
      | infinity s' => cases s <;> cases s' <;> decide
      | zero s' => rfl
      | finite s' hPos hShift hLt hNormal hFinite =>
          cases s' <;> simp only [Sign.apply]
          · exact some_gt_eq_compare (by omega)
          · exact some_lt_eq_compare (by omega)
  | finite s hPos hShift hLt hNormal hFinite =>
      cases hv with
      | infinity s' =>
          cases s <;> cases s' <;> simp only [Sign.apply]
          · exact some_gt_eq_compare (by omega)
          · exact some_lt_eq_compare (by omega)
          · exact some_gt_eq_compare (by omega)
          · exact some_lt_eq_compare (by omega)
      | zero s' =>
          cases s <;> simp only [Sign.apply]
          · exact some_lt_eq_compare (by omega)
          · exact some_gt_eq_compare (by omega)
      | finite s' hPos' hShift' hLt' hNormal' hFinite' =>
          -- Only here two magnitudes meet; everywhere else signs and kinds tell which is less.
          have hSame := compare_then_compare hLt hLt' hNormal hNormal'
          rw [← hShift, ← hShift'] at hSame
          cases s <;> cases s' <;> simp only [Sign.apply]
          · rw [UnpackedFloat.compare, hSame, compare_neg_neg]
          · exact some_lt_eq_compare (by omega)
          · exact some_gt_eq_compare (by omega)
          · rw [UnpackedFloat.compare, hSame]

/-! ## Unpacking -/

/-- Every pattern but those of NaN stands at the number that it is, with its sign. -/
theorem standsAt_unpack {s : Sign} {e : BitVec 11} {m : BitVec 52}
    (h : (unpack .binary64 (packComponents .binary64 s e m)).isNaN = false) :
    StandsAt (unpack .binary64 (packComponents .binary64 s e m))
      (s.apply (e.toNat * 2 ^ 52 + m.toNat : Nat)) := by
  have hExponent : e.toNat < 2 ^ 11 := e.isLt
  have hMantissa : m.toNat < 2 ^ 52 := m.isLt
  unfold unpack at h ⊢
  simp only [unpackMantissa_packComponents, unpackExponent_packComponents,
    unpackSign_packComponents, Sign.ofBitVec_toBitVec] at h ⊢
  by_cases hTop : e = -1#11
  · subst hTop
    by_cases hZero : m = 0#52
    · subst hZero
      exact .infinity s
    · simp [hZero, Float.Model.UnpackedFloat.isNaN] at h
  · have hLt : e.toNat ≠ 2047 := fun hEq => hTop (BitVec.eq_of_toNat_eq hEq)
    simp only [hTop, if_false]
    by_cases hLeast : e = 0#11
    · subst hLeast
      by_cases hZero : m = 0#52
      · subst hZero
        have hPosition : s.apply 0 = 0 := by cases s <;> rfl
        have hStands := StandsAt.zero s
        rw [← hPosition] at hStands
        exact hStands
      · simp only [hZero, if_true, dite_false]
        change StandsAt _ (s.apply (0 * 2 ^ 52 + m.toNat : Nat))
        refine .finite s _ rfl (by omega) (by omega) ?_
        rw [Binary64.infinity, Binary64.hiddenBit]
        omega
    · -- The exponent counts one less than the pattern says, and the bit in front makes up for it.
      have hSome : e.toNat ≠ 0 := fun hEq => hLeast (BitVec.eq_of_toNat_eq hEq)
      have hWhole : (1#1 ++ m).toNat = 2 ^ 52 + m.toNat := by
        rw [BitVec.toNat_append, ← Nat.shiftLeft_add_eq_or_of_lt hMantissa]
        rfl
      have hMagnitude : e.toNat * 2 ^ 52 + m.toNat = (e.toNat - 1) * 2 ^ 52 + (1#1 ++ m).toNat := by
        omega
      simp only [hLeast, if_false]
      rw [hMagnitude]
      refine .finite s _ ?_ (by omega) (by omega) ?_
      · change (e.toNat : Int) - (1023 + 52) = _
        omega
      · rw [Binary64.infinity, Binary64.hiddenBit]
        omega

variable {x y : Float}

theorem position_eq {s : Sign} {e : BitVec 11} {m : BitVec 52}
    (h : x.toBits.toBitVec = packComponents .binary64 s e m) :
    position x = s.apply (e.toNat * 2 ^ 52 + m.toNat : Nat) := by
  have hExponent : e.toNat < 2 ^ 11 := e.isLt
  have hMantissa : m.toNat < 2 ^ 52 := m.isLt
  have hSign : s.toBitVec.toNat < 2 ^ 1 := s.toBitVec.isLt
  have hBits : x.toBits.toNat = s.toBitVec.toNat * 2 ^ 63 + e.toNat * 2 ^ 52 + m.toNat := by
    rw [← UInt64.toNat_toBitVec, h, toNat_packComponents]
  have hMagnitude : magnitude x = e.toNat * 2 ^ 52 + m.toNat := by
    rw [magnitude, hBits, Binary64.signBit]
    omega
  have hNegative : isNegative x = true ↔ s.toBitVec.toNat = 1 := by
    rw [isNegative_iff, hBits]
    omega
  cases s with
  | negative => rw [position, hMagnitude, if_pos (hNegative.2 rfl), Sign.apply]
  | positive =>
      have hClear : ¬isNegative x = true := fun hSet => absurd (hNegative.1 hSet) (by decide)
      rw [position, hMagnitude, if_neg hClear, Sign.apply]

/-- A number that is not NaN stands at its position. -/
theorem standsAt_position (h : x.isNaN = false) : StandsAt x.toModel.unpack (position x) := by
  obtain ⟨s, e, m, hBits⟩ : ∃ s e m, x.toBits.toBitVec = packComponents .binary64 s e m :=
    ⟨_, _, _, (@packComponents_unpackSign_unpackExponent_unpackMantissa .binary64 _).symm⟩
  have hUnpack : x.toModel.unpack = unpack .binary64 (packComponents .binary64 s e m) := by
    rw [← hBits]
    rfl
  change x.toModel.unpack.isNaN = false at h
  rw [hUnpack] at h
  rw [hUnpack, position_eq hBits]
  exact standsAt_unpack h

/-! ## Numbers -/

theorem lt_iff_compare : x < y ↔ x.toModel.unpack.compare y.toModel.unpack = some .lt := by
  change decide (x.toModel < y.toModel) = true ↔ _
  rw [decide_eq_true_iff]
  exact beq_iff_eq

theorem beq_iff_compare :
    (x == y) = true ↔ x.toModel.unpack.compare y.toModel.unpack = some .eq := by
  change (x.toModel.unpack.compare y.toModel.unpack == some .eq) = true ↔ _
  exact beq_iff_eq

/-- Numbers that are not NaN are less or more as their positions are. -/
theorem lt_iff_position (hx : x.isNaN = false) (hy : y.isNaN = false) :
    x < y ↔ position x < position y := by
  rw [lt_iff_compare, (standsAt_position hx).compare_eq (standsAt_position hy), Option.some.injEq,
    Int.compare_eq_lt]

/-- Numbers that are not NaN are equal if their positions are. -/
theorem beq_iff_position (hx : x.isNaN = false) (hy : y.isNaN = false) :
    (x == y) = true ↔ position x = position y := by
  rw [beq_iff_compare, (standsAt_position hx).compare_eq (standsAt_position hy), Option.some.injEq,
    Int.compare_eq_eq]

/-- Nothing compares with NaN. -/
theorem compare_of_isNaN (h : x.isNaN = true ∨ y.isNaN = true) :
    x.toModel.unpack.compare y.toModel.unpack = none := by
  change x.toModel.unpack.isNaN = true ∨ y.toModel.unpack.isNaN = true at h
  cases hx : x.toModel.unpack <;> cases hy : y.toModel.unpack <;>
    simp_all [UnpackedFloat.compare, Float.Model.UnpackedFloat.isNaN]

end TinyScript.Number
