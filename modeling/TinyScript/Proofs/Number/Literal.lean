import TinyScript.Proofs.Number.ReadBack
import TinyScript.Proofs.Source.Numerals
import TinyScript.Proofs.Text.Quoting

/-!
# Literal forms tell numbers apart

The literal form of a number is positional or scientific. A positional one is a lexeme of the
language, and stands for the number. A scientific one is not, but it shows the shortest decimal:
all digits of the coefficient in front of the letter `e`, behind it the power of ten of
the first of them. No lexeme has the letter, so the two are never confused.

## Main results

* `Source.Lexeme.payload_inj`: the text of a number lexeme tells what it stands for.
* `Decimal.scientific_inj`: the scientific form tells the decimal.
* `Number.literal_chars`, `Number.literal_inj`: literal forms of numbers without a sign.
-/

namespace TinyScript

open Token (Payload)

/-- The text of a number lexeme tells what it stands for. -/
theorem Source.Lexeme.payload_inj {cs : List Char} {payload payload' : Option Payload}
    (h : Source.Lexeme .number cs payload) (h' : Source.Lexeme .number cs payload') :
    payload = payload' := by
  have hNone (c : Char) (hc : c ∈ ([] : List Char).head?) : c.isDigit = false ∧ c ≠ '.' := by
    cases hc
  have hFirst := Source.segments_number h hNone
  have hSecond := Source.segments_number h' hNone
  rw [hFirst] at hSecond
  simpa using hSecond

/-- A number lexeme is made of digits and at most one point, which is not in front. -/
theorem Source.Lexeme.exists_chars {cs : List Char} {payload : Option Payload}
    (h : Source.Lexeme .number cs payload) :
    ∃ c rest, cs = c :: rest ∧ c.isDigit = true ∧ ∀ d ∈ cs, d.isDigit = true ∨ d = '.' := by
  obtain ⟨c, ds, hDigit, hDigits, ⟨rfl, -⟩ | ⟨e, es, hDigits', rfl, -⟩⟩ := h.exists_digits
  · refine ⟨c, ds, rfl, hDigit, fun d hd => .inl ?_⟩
    exact (List.mem_cons.1 hd).elim (fun hEq => hEq ▸ hDigit) (hDigits d)
  · refine ⟨c, _, rfl, hDigit, fun d hd => ?_⟩
    simp only [List.mem_cons, List.mem_append] at hd
    rcases hd with rfl | hWhole | rfl | hFraction
    · exact .inl hDigit
    · exact .inl (hDigits d hWhole)
    · exact .inr rfl
    · exact .inl (hDigits' d (List.mem_cons.2 hFraction))

namespace Decimal

variable {d d' : Decimal}

/-- What is read has no sign. -/
theorem isNegative_toFloat (d : Decimal) : Number.isNegative d.toFloat = false := by
  apply Number.isNegative_ofBits
  have hLe : d.toBits ≤ Binary64.infinity := Nat.min_le_right _ _
  unfold Binary64.infinity Binary64.hiddenBit at hLe
  rw [Nat.toUInt64_eq, UInt64.toNat_ofNat']
  omega

/-! ## Positional forms -/

/-- A fraction digit may be put behind a whole number. -/
theorem lexeme_positional_zero {c e : Nat} :
    Source.Lexeme .number (positional ⟨c, .ofNat e⟩ ++ ['.', '0'])
      (some (.number (toFloat ⟨c, .ofNat e⟩))) := by
  have hValue : (ofDigits (Nat.toDigits 10 (c * 10 ^ e)) ['0']).value = value ⟨c, .ofNat e⟩ := by
    simp only [value, ofDigits, Nat.ofDigitChars_append, Nat.ofDigitChars_ten_toDigits,
      Nat.ofDigitChars_cons, Nat.ofDigitChars_nil, List.length_singleton]
    simp
    ring
  have hFloat : (ofDigits (Nat.toDigits 10 (c * 10 ^ e)) ['0']).toFloat =
      toFloat ⟨c, .ofNat e⟩ := by
    rw [toFloat, toFloat, toBits_eq_of_value_eq hValue]
  rw [← hFloat]
  exact .fraction Nat.toDigits_ne_nil (fun d hd => isDigit_of_mem_toDigits hd) (by simp) (by simp)

/-! ## Scientific forms -/

/-- Digits with a point behind the first one, unless it is the only one. -/
def pointed : List Char → List Char
  | first :: second :: rest => first :: '.' :: second :: rest
  | digits => digits

theorem scientific_eq (d : Decimal) :
    d.scientific =
      pointed (Nat.toDigits 10 d.coefficient) ++ 'e' :: (toString d.leadingExponent).toList := by
  unfold scientific pointed
  rfl

/-- The point is put where it can be taken out again. -/
theorem filter_pointed {digits : List Char} (h : ∀ c ∈ digits, c.isDigit = true) :
    (pointed digits).filter Char.isDigit = digits := by
  have hAll : digits.filter Char.isDigit = digits := List.filter_eq_self.2 h
  unfold pointed
  split
  · rw [List.filter_cons_of_pos (h _ (by simp)), List.filter_cons_of_neg (by decide)]
    rwa [List.filter_cons_of_pos (h _ (by simp))] at hAll
  · exact hAll

theorem mem_pointed {digits : List Char} {c : Char} (h : c ∈ pointed digits) :
    c = '.' ∨ c ∈ digits := by
  unfold pointed at h
  split at h
  · simp only [List.mem_cons] at *
    tauto
  · exact .inr h

theorem exists_scientific_eq (d : Decimal) :
    ∃ c rest, d.scientific = c :: rest ∧ c.isDigit = true := by
  have hDigit (c : Char) (hc : c ∈ Nat.toDigits 10 d.coefficient) : c.isDigit = true :=
    isDigit_of_mem_toDigits hc
  have hSome : Nat.toDigits 10 d.coefficient ≠ [] := Nat.toDigits_ne_nil
  rw [scientific_eq]
  unfold pointed
  split
  · next hDigits => exact ⟨_, _, rfl, hDigit _ (by simp [hDigits])⟩
  · obtain ⟨c, rest, hDigits⟩ := List.exists_cons_of_ne_nil hSome
    exact ⟨c, _, by rw [hDigits, List.cons_append], hDigit c (by simp [hDigits])⟩

theorem mem_toString {z : Int} {c : Char} (h : c ∈ (toString z).toList) :
    c.isDigit = true ∨ c = '-' := by
  have hNat (n : Nat) (hc : c ∈ n.repr.toList) : c.isDigit = true := by
    rw [Nat.repr_eq_ofList_toDigits, String.toList_ofList] at hc
    exact isDigit_of_mem_toDigits hc
  rw [Int.toString_eq_repr, Int.repr_eq_if] at h
  split at h
  · exact .inl (hNat _ h)
  · rw [String.toList_append] at h
    rcases List.mem_append.1 h with hMinus | hDigit
    · exact .inr (List.mem_singleton.1 hMinus)
    · exact .inl (hNat _ hDigit)

/-- The scientific form tells the decimal. -/
theorem scientific_inj (h : d.scientific = d'.scientific) : d = d' := by
  have hMantissa (n : Nat) (c : Char) (hc : c ∈ pointed (Nat.toDigits 10 n)) :
      (c != 'e') = true := by
    rcases mem_pointed hc with rfl | hDigit
    · decide
    · rw [bne_iff_ne]
      rintro rfl
      exact absurd (isDigit_of_mem_toDigits hDigit) (by decide)
  have hLetter (rest : List Char) (c : Char) (hc : c ∈ ('e' :: rest).head?) :
      (c != 'e') = false := by
    rw [← Option.some.inj hc, bne_self_eq_false]
  rw [scientific_eq, scientific_eq] at h
  obtain ⟨hPointed, hBehind⟩ :=
    Text.append_inj_of_run (hMantissa _) (hMantissa _) (hLetter _) (hLetter _) h
  have hDigits : Nat.toDigits 10 d.coefficient = Nat.toDigits 10 d'.coefficient := by
    rw [← filter_pointed fun c hc => isDigit_of_mem_toDigits hc, hPointed,
      filter_pointed fun c hc => isDigit_of_mem_toDigits hc]
  have hCoefficient : d.coefficient = d'.coefficient := by
    rw [← Nat.ofDigitChars_ten_toDigits (n := d.coefficient), hDigits,
      Nat.ofDigitChars_ten_toDigits]
  have hLeading : d.leadingExponent = d'.leadingExponent := by
    apply Int.repr_inj.1
    rw [← Int.toString_eq_repr, ← Int.toString_eq_repr]
    exact String.toList_inj.1 (List.cons.inj hBehind).2
  have hExponent : d.exponent = d'.exponent := by
    rw [leadingExponent, leadingExponent, hCoefficient] at hLeading
    omega
  cases d
  cases d'
  simp only at hCoefficient hExponent
  rw [hCoefficient, hExponent]

end Decimal

/-! ## Literal forms -/

namespace Number

variable {x y : Float}

theorem toList_literal (hFinite : x.isFinite = true) (hSign : isNegative x = false) :
    (literal x).toList = literalDigits (magnitude x) := by
  unfold literal signed
  rw [isNaN_of_isFinite hFinite, if_neg Bool.false_ne_true]
  simp only [isFinite_iff.mp hFinite, if_true, hSign, if_neg Bool.false_ne_true,
    String.toList_ofList]

/-- A literal form is positional, and then a lexeme that stands for the number, or scientific. -/
theorem literal_cases (hFinite : x.isFinite = true) (hSign : isNegative x = false) :
    Source.Lexeme .number (literal x).toList (some (.number x)) ∨
      (literal x).toList = (Decimal.shortest (magnitude x)).scientific := by
  rw [toList_literal hFinite hSign]
  have hFloat := toFloat_shortest hFinite hSign
  unfold literalDigits
  generalize Decimal.shortest (magnitude x) = d at *
  obtain ⟨c, e⟩ := d
  simp only
  split
  · left
    rw [← hFloat]
    cases e with
    | ofNat e => exact Decimal.lexeme_positional_zero
    | negSucc e => exact Decimal.lexeme_positional _
  · exact .inr rfl

/-- The characters of a literal form. -/
def isLiteralChar (c : Char) : Bool :=
  c.isDigit || c == '.' || c == 'e' || c == '-'

theorem isLiteralChar_of_mem_scientific {d : Decimal} {c : Char} (h : c ∈ d.scientific) :
    isLiteralChar c = true := by
  rw [Decimal.scientific_eq, List.mem_append, List.mem_cons] at h
  rcases h with hMantissa | rfl | hExponent
  · rcases Decimal.mem_pointed hMantissa with rfl | hDigit
    · decide
    · simp [isLiteralChar, Decimal.isDigit_of_mem_toDigits hDigit]
  · decide
  · rcases Decimal.mem_toString hExponent with hDigit | rfl
    · simp [isLiteralChar, hDigit]
    · decide

/-- A literal form begins with a digit and has no other characters than those of a number. -/
theorem literal_chars (hFinite : x.isFinite = true) (hSign : isNegative x = false) :
    ∃ c cs, (literal x).toList = c :: cs ∧ c.isDigit = true ∧
      ∀ d ∈ (literal x).toList, isLiteralChar d = true := by
  rcases literal_cases hFinite hSign with hLexeme | hScientific
  · obtain ⟨c, cs, hText, hDigit, hChars⟩ := hLexeme.exists_chars
    refine ⟨c, cs, hText, hDigit, fun d hd => ?_⟩
    rcases hChars d hd with hd | rfl
    · simp [isLiteralChar, hd]
    · decide
  · rw [hScientific]
    obtain ⟨c, rest, hText, hDigit⟩ := (Decimal.shortest (magnitude x)).exists_scientific_eq
    exact ⟨c, rest, hText, hDigit, fun d hd => isLiteralChar_of_mem_scientific hd⟩

/-- No lexeme is a scientific form. -/
theorem lexeme_ne_scientific {cs : List Char} {payload : Option Payload} {d : Decimal}
    (h : Source.Lexeme .number cs payload) : cs ≠ d.scientific := by
  rintro rfl
  obtain ⟨c, rest, -, -, hChars⟩ := h.exists_chars
  have hLetter : 'e' ∈ d.scientific := by
    rw [Decimal.scientific_eq]
    exact List.mem_append_right _ List.mem_cons_self
  exact absurd (hChars 'e' hLetter) (by decide)

/-- The literal form tells the number. -/
theorem literal_inj (hx : x.isFinite = true) (hx' : isNegative x = false)
    (hy : y.isFinite = true) (hy' : isNegative y = false) (h : literal x = literal y) : x = y := by
  rcases literal_cases hx hx' with hLexeme | hScientific <;>
    rcases literal_cases hy hy' with hLexeme' | hScientific'
  · rw [← h] at hLexeme'
    simpa using hLexeme.payload_inj hLexeme'
  · rw [← h] at hScientific'
    exact absurd hScientific' (lexeme_ne_scientific hLexeme)
  · rw [h] at hScientific
    exact absurd hScientific (lexeme_ne_scientific hLexeme')
  · rw [h, hScientific'] at hScientific
    rw [← toFloat_shortest hx hx', ← Decimal.scientific_inj hScientific, toFloat_shortest hy hy']

end Number

end TinyScript
