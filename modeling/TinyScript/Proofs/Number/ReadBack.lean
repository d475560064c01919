import TinyScript.Proofs.Number.Bits
import TinyScript.Proofs.Source.Lexicon

/-!
# Display forms read back

The display form of a finite number is the positional form of the shortest decimal that
reads back. That it does is not settled by the search alone: the search may find nothing,
and then the decimal with all digits has to be exact. So rounding is shown to see only the
value of a quotient, and to leave alone a quotient that is a magnitude already.

The scale `2¹⁰⁷⁴` is too large to be computed with in a proof. Where it matters, the number
of places is a variable `places` with the hypothesis `places = 1074`.

## Main results

* `Binary64.nearest_congr`, `Binary64.nearest_exact`: rounding, by value and where it is exact.
* `Decimal.toBits_shortest`: the shortest decimal reads back.
* `Decimal.lexeme_positional`: the positional form of a decimal is a number lexeme, and stands
  for the number nearest to the decimal.
* `Number.lexeme_display`, `Number.display_of_isNegative`: display forms, by sign.
-/

namespace TinyScript

namespace Binary64

variable {num den bits : Nat}

/-! ## Rounding sees the value of a quotient -/

theorem roundQuotient_mul_mul_right {k : Nat} (hk : 0 < k) (num den : Nat) :
    roundQuotient (num * k) (den * k) = roundQuotient num den := by
  have hTwice : 2 * (num % den * k) = 2 * (num % den) * k := by rw [Nat.mul_assoc]
  unfold roundQuotient
  simp only [Nat.mul_div_mul_right _ _ hk, Nat.mul_mod_mul_right, hTwice, Nat.mul_lt_mul_right hk]

/-- The definition, with the size of its scale out of sight. -/
theorem nearest_eq {places : Nat} (hPlaces : places = 1074) (num den : Nat) :
    nearest num den =
      min ((Nat.log2 (num * 2 ^ places / den) - 52) * hiddenBit +
        roundQuotient (num * 2 ^ places) (den * 2 ^ (Nat.log2 (num * 2 ^ places / den) - 52)))
        infinity := by
  unfold nearest
  simp only [← hPlaces, Nat.pow_eq]

theorem nearest_mul_mul_right {k : Nat} (hk : 0 < k) (num den : Nat) :
    nearest (num * k) (den * k) = nearest num den := by
  obtain ⟨places, hPlaces⟩ : ∃ places, places = 1074 := ⟨_, rfl⟩
  rw [nearest_eq hPlaces, nearest_eq hPlaces, Nat.mul_right_comm num,
    Nat.mul_div_mul_right _ _ hk, Nat.mul_right_comm den, roundQuotient_mul_mul_right hk]

/-- Equal quotients are rounded alike. -/
theorem nearest_congr {num' den' : Nat} (hDen : 0 < den) (hDen' : 0 < den')
    (h : num * den' = num' * den) : nearest num den = nearest num' den' := by
  calc nearest num den = nearest (num * den') (den * den') := (nearest_mul_mul_right hDen' _ _).symm
    _ = nearest (num' * den) (den' * den) := by rw [h, Nat.mul_comm den]
    _ = nearest num' den' := nearest_mul_mul_right hDen _ _

/-! ## Magnitudes are exact -/

theorem significand_lt (bits : Nat) : significand bits < 2 ^ 53 := by
  unfold significand hiddenBit
  split <;> omega

theorem le_significand (h : 0 < shift bits) : 2 ^ 52 ≤ significand bits := by
  unfold shift hiddenBit at h
  unfold significand hiddenBit
  split <;> omega

/-- The shift of a magnitude is the one that rounding chooses for it. -/
theorem log2_significand_mul (bits : Nat) :
    Nat.log2 (significand bits * 2 ^ shift bits) - 52 = shift bits := by
  have hLt := significand_lt bits
  by_cases hShift : shift bits = 0
  · -- A short significand: nothing is cut off, and the subtraction stops at zero.
    rw [hShift, Nat.pow_zero, Nat.mul_one, Nat.sub_eq_zero_iff_le]
    by_cases hZero : significand bits = 0
    · rw [hZero]
      decide
    · have hLog := (Nat.log2_lt hZero).mpr hLt
      omega
  · have hLe := le_significand (Nat.pos_of_ne_zero hShift)
    have hPos := Nat.two_pow_pos (shift bits)
    have hLog : Nat.log2 (significand bits * 2 ^ shift bits) = 52 + shift bits := by
      apply (Nat.log2_eq_iff (Nat.mul_ne_zero (by omega) (Nat.ne_of_gt hPos))).mpr
      rw [Nat.add_right_comm, Nat.pow_add, Nat.pow_add]
      exact ⟨Nat.mul_le_mul_right _ hLe, Nat.mul_lt_mul_of_pos_right hLt hPos⟩
    omega

/-- A magnitude is the nearest one to itself. -/
theorem nearest_exact {places : Nat} (hPlaces : places = 1074) (hBits : bits < infinity) :
    nearest (significand bits * 2 ^ shift bits) (2 ^ places) = bits := by
  have hPos := Nat.two_pow_pos places
  rw [nearest_eq hPlaces, Nat.mul_div_cancel _ hPos, log2_significand_mul, Nat.mul_assoc,
    Nat.mul_comm (2 ^ shift bits),
    roundQuotient_mul_right _ _ (Nat.mul_pos hPos (Nat.two_pow_pos _)),
    shift_mul_add_significand, Nat.min_eq_left (Nat.le_of_lt hBits)]

/-- A magnitude is the nearest one to its own number of `10⁻¹⁰⁷⁴`. -/
theorem nearest_units {places : Nat} (hPlaces : places = 1074) (hBits : bits < infinity) :
    nearest (units bits) (10 ^ places) = bits := by
  have hUnits : units bits = significand bits * 2 ^ shift bits * 5 ^ places := by
    unfold units
    simp only [← hPlaces, Nat.pow_eq]
  have hTen : 10 ^ places = 2 ^ places * 5 ^ places := Nat.mul_pow 2 5 places
  rw [hUnits, hTen, nearest_mul_mul_right (Nat.pow_pos (by decide)), nearest_exact hPlaces hBits]

end Binary64

namespace Decimal

variable {bits : Nat} {d d' : Decimal}

/-! ## Decimals are read by value -/

/-- The number that a decimal stands for. -/
def value (d : Decimal) : ℚ :=
  d.coefficient * 10 ^ d.exponent

theorem ratio_snd_pos (d : Decimal) : 0 < d.ratio.2 := by
  unfold ratio
  split
  · exact Nat.one_pos
  · exact Nat.pow_pos (by decide)

theorem value_eq_ratio (d : Decimal) : d.value = (d.ratio.1 : ℚ) / d.ratio.2 := by
  obtain ⟨c, e⟩ := d
  cases e with
  | ofNat e => simp [value, ratio]
  | negSucc e => simp [value, ratio, div_eq_mul_inv]

/-- A decimal is read by its value alone. -/
theorem toBits_eq_of_value_eq (h : d.value = d'.value) : d.toBits = d'.toBits := by
  have hPos (d : Decimal) : (d.ratio.2 : ℚ) ≠ 0 :=
    Nat.cast_ne_zero.mpr (Nat.ne_of_gt d.ratio_snd_pos)
  rw [value_eq_ratio, value_eq_ratio, div_eq_div_iff (hPos d) (hPos d')] at h
  apply Binary64.nearest_congr d.ratio_snd_pos d'.ratio_snd_pos
  exact_mod_cast h

/-! ## Fewest digits -/

/-- Trailing zeros do not count. -/
theorem value_trim (d : Decimal) : d.trim.value = d.value := by
  fun_induction trim d with
  | case1 d hZero => simp [value, hZero]
  | case2 d hZero hTen ih =>
    have hCoefficient : (d.coefficient : ℚ) = (d.coefficient / 10 : Nat) * 10 := by
      exact_mod_cast (Nat.div_mul_cancel (Nat.dvd_of_mod_eq_zero hTen)).symm
    rw [ih, value, value, hCoefficient, zpow_add_one₀ (by decide)]
    ring
  | case3 d hZero hTen => rfl

theorem toBits_of_onGrid {dropped : Nat} (h : onGrid bits dropped = some d) : d.toBits = bits := by
  have hFound := List.find?_some h
  exact beq_iff_eq.mp hFound

theorem toBits_mk_neg (c e : Nat) :
    (⟨c, -(e : Int)⟩ : Decimal).toBits = Binary64.nearest c (10 ^ e) := by
  cases e with
  | zero =>
    change Binary64.nearest (c * 1) 1 = _
    rw [Nat.mul_one, Nat.pow_zero]
  | succ e => rfl

/-- The decimal with all digits reads back. -/
theorem toBits_units (hBits : bits < Binary64.infinity) :
    (⟨Binary64.units bits, -1074⟩ : Decimal).toBits = bits := by
  obtain ⟨places, hPlaces⟩ : ∃ places, places = 1074 := ⟨_, rfl⟩
  have hExact := toBits_mk_neg (Binary64.units bits) places
  rw [Binary64.nearest_units hPlaces hBits, hPlaces] at hExact
  exact hExact

/-- The shortest decimal reads back, whether the search for it finds something or not. -/
theorem toBits_shortest (hBits : bits < Binary64.infinity) : (shortest bits).toBits = bits := by
  rw [shortest, toBits_eq_of_value_eq (value_trim _)]
  cases hFound : (List.range (digitCount (Binary64.units bits))).findSome? fun n =>
      onGrid bits (digitCount (Binary64.units bits) - 1 - n) with
  | none => exact toBits_units hBits
  | some d =>
    obtain ⟨n, -, hGrid⟩ := List.exists_of_findSome?_eq_some hFound
    exact toBits_of_onGrid hGrid

/-! ## Positional forms -/

theorem isDigit_of_mem_toDigits {n : Nat} {c : Char} (h : c ∈ Nat.toDigits 10 n) :
    c.isDigit = true :=
  Nat.isDigit_of_mem_toDigits (by decide) (by decide) h

theorem length_paddedDigits {width n : Nat} (hWidth : 0 < width) (h : n < 10 ^ width) :
    (paddedDigits width n).length = width := by
  have hLength := (Nat.length_toDigits_le_iff (by decide) hWidth).mpr h
  simp only [paddedDigits, List.length_append, List.length_replicate]
  omega

theorem ofDigitChars_paddedDigits (width n : Nat) :
    Nat.ofDigitChars 10 (paddedDigits width n) 0 = n := by
  rw [paddedDigits, Nat.ofDigitChars_append, Nat.ofDigitChars_replicate_zero, Nat.mul_zero,
    Nat.ofDigitChars_ten_toDigits]

theorem paddedDigits_ne_nil (width n : Nat) : paddedDigits width n ≠ [] :=
  List.append_ne_nil_of_right_ne_nil _ Nat.toDigits_ne_nil

theorem isDigit_of_mem_paddedDigits {width n : Nat} {c : Char} (h : c ∈ paddedDigits width n) :
    c.isDigit = true := by
  rcases List.mem_append.mp h with hZero | hDigit
  · rw [List.eq_of_mem_replicate hZero]
    decide
  · exact isDigit_of_mem_toDigits hDigit

/-- A coefficient cut in two at its point is put together again. -/
theorem ofDigits_split {k : Nat} (hk : 0 < k) (c : Nat) :
    ofDigits (Nat.toDigits 10 (c / 10 ^ k)) (paddedDigits k (c % 10 ^ k)) = ⟨c, -(k : Int)⟩ := by
  have hLength : (paddedDigits k (c % 10 ^ k)).length = k :=
    length_paddedDigits hk (Nat.mod_lt _ (Nat.pow_pos (by decide)))
  rw [ofDigits, Nat.ofDigitChars_append, Nat.ofDigitChars_eq_ofDigitChars_zero, hLength,
    ofDigitChars_paddedDigits, Nat.ofDigitChars_ten_toDigits, Nat.div_add_mod]

/-- The positional form of a decimal is a number lexeme, and stands for the number nearest to it. -/
theorem lexeme_positional (d : Decimal) :
    Source.Lexeme .number d.positional (some (.number d.toFloat)) := by
  obtain ⟨c, e⟩ := d
  cases e with
  | ofNat e =>
    have hValue : (ofDigits (Nat.toDigits 10 (c * 10 ^ e)) []).value = value ⟨c, .ofNat e⟩ := by
      simp [value, ofDigits]
    have hFloat : (ofDigits (Nat.toDigits 10 (c * 10 ^ e)) []).toFloat = toFloat ⟨c, .ofNat e⟩ := by
      rw [toFloat, toFloat, toBits_eq_of_value_eq hValue]
    rw [← hFloat]
    exact .whole Nat.toDigits_ne_nil fun d hd => isDigit_of_mem_toDigits hd
  | negSucc e =>
    have hFloat : (ofDigits _ _).toFloat = toFloat ⟨c, .negSucc e⟩ :=
      congrArg toFloat (ofDigits_split (Nat.succ_pos e) c)
    rw [← hFloat]
    exact .fraction Nat.toDigits_ne_nil (fun d hd => isDigit_of_mem_toDigits hd)
      (paddedDigits_ne_nil _ _) fun d hd => isDigit_of_mem_paddedDigits hd

end Decimal

/-! ## Display forms -/

namespace Number

variable {x : Float}

theorem display_of_isFinite (hFinite : x.isFinite = true) :
    display x = String.ofList (if isNegative x then '-' :: displayDigits (magnitude x)
      else displayDigits (magnitude x)) := by
  unfold display signed
  rw [isNaN_of_isFinite hFinite, if_neg Bool.false_ne_true]
  simp only [isFinite_iff.mp hFinite, if_true]

theorem toList_display (hFinite : x.isFinite = true) (hSign : isNegative x = false) :
    (display x).toList = displayDigits (magnitude x) := by
  rw [display_of_isFinite hFinite, hSign, if_neg Bool.false_ne_true, String.toList_ofList]

/-- The shortest decimal of a number without a sign reads back as the number. -/
theorem toFloat_shortest (hFinite : x.isFinite = true) (hSign : isNegative x = false) :
    (Decimal.shortest (magnitude x)).toFloat = x := by
  rw [Decimal.toFloat, Decimal.toBits_shortest (isFinite_iff.mp hFinite), ofBits_magnitude hSign]

/-- The display form of a number without a sign is a lexeme, and stands for the number. -/
theorem lexeme_display (hFinite : x.isFinite = true) (hSign : isNegative x = false) :
    Source.Lexeme .number (display x).toList (some (.number x)) := by
  have hLexeme := Decimal.lexeme_positional (Decimal.shortest (magnitude x))
  rw [toFloat_shortest hFinite hSign, ← displayDigits, ← toList_display hFinite hSign] at hLexeme
  exact hLexeme

/-- The display form of a number with a sign is that of its negation behind a minus. -/
theorem display_of_isNegative (hFinite : x.isFinite = true) (hSign : isNegative x = true) :
    display x = "-" ++ display (-x) := by
  have hNeg : isNegative (-x) = false := by rw [isNegative_neg hFinite, hSign, Bool.not_true]
  apply String.toList_inj.mp
  rw [String.toList_append, toList_display (isFinite_neg hFinite) hNeg, magnitude_neg hFinite,
    display_of_isFinite hFinite, hSign, if_pos rfl, String.toList_ofList]
  rfl

end Number

end TinyScript
