import Mathlib

/-!
# The order of texts, by characters and by bytes

Texts are ordered like the words of a dictionary, by the first character that differs. In
UTF-8 a character is one to four bytes, and what makes the encoding keep the order is that the
first byte tells the number of bytes, more of them for larger characters, and that the bytes
behind it are digits to the base 64, the highest first. So of two different characters the
larger one has the larger byte where the two encodings differ first, and it does not matter
what follows. The order of the bytes is thus the order of the texts, and so is the order of
the scalar values.

## Main results

* `lex_utf8EncodeChar`: the encodings of two characters.
* `lt_iff_lex_bytes`, `lt_iff_lex_scalars`: the order of texts.
-/

namespace TinyScript.Text

open String (utf8EncodeChar)

/-- The bytes of a text in UTF-8. -/
def bytes (s : String) : List UInt8 :=
  s.toUTF8.data.toList

/-- The scalar values of the characters of a text. -/
def scalars (s : String) : List Nat :=
  s.toList.map Char.toNat

theorem bytes_eq (s : String) : bytes s = s.toList.flatMap utf8EncodeChar := by
  have hBytes : s.toByteArray = s.toList.utf8Encode := by
    rw [← String.toByteArray_ofList, String.ofList_toList]
  rw [bytes, String.toUTF8_eq_toByteArray, hBytes, List.utf8Encode, List.toList_data_toByteArray]

/-! ## Characters -/

theorem toNat_val_lt (c : Char) : c.val.toNat < 1114112 := by
  rcases c.valid with h | h
  · omega
  · exact h.2

/-- The encodings of two characters differ at a byte that both have. -/
theorem lex_utf8EncodeChar {c d : Char} (h : c < d) (r r' : List UInt8) :
    List.Lex (· < ·) (utf8EncodeChar c ++ r) (utf8EncodeChar d ++ r') := by
  have hLess : c.val.toNat < d.val.toNat := h
  have hMax := toNat_val_lt d
  -- The bytes are digits to the base 64, so they are told apart one division at a time.
  have hThird (n : Nat) : n / 4096 = n / 64 / 64 := by rw [Nat.div_div_eq_div_mul]
  have hFourth (n : Nat) : n / 262144 = n / 64 / 64 / 64 := by
    rw [Nat.div_div_eq_div_mul, Nat.div_div_eq_div_mul]
  unfold utf8EncodeChar
  simp only [hThird, hFourth]
  generalize c.val.toNat = v at *
  generalize d.val.toNat = w at *
  split_ifs
  all_goals simp only [List.cons_append, List.nil_append, List.cons_lex_cons_iff,
    UInt8.lt_iff_toNat_lt, UInt8.toNat_ofNat', ← UInt8.toNat_inj]
  all_goals omega

/-! ## Texts -/

theorem lex_append_left {l a b : List UInt8} (h : List.Lex (· < ·) a b) :
    List.Lex (· < ·) (l ++ a) (l ++ b) := by
  induction l with
  | nil => exact h
  | cons x l ih => exact .cons ih

/-- The bytes of texts are in order if their characters are. -/
theorem lex_flatMap {cs ds : List Char} (h : List.Lex (· < ·) cs ds) :
    List.Lex (· < ·) (cs.flatMap utf8EncodeChar) (ds.flatMap utf8EncodeChar) := by
  induction h with
  | @nil d ds =>
      obtain ⟨b, bs, hBytes⟩ := List.exists_cons_of_ne_nil (@String.utf8EncodeChar_ne_nil d)
      rw [List.flatMap_cons, hBytes]
      exact .nil
  | rel h =>
      rw [List.flatMap_cons, List.flatMap_cons]
      exact lex_utf8EncodeChar h _ _
  | cons _ ih =>
      rw [List.flatMap_cons, List.flatMap_cons]
      exact lex_append_left ih

theorem lex_bytes_asymm {as bs : List UInt8} (h : List.Lex (· < ·) as bs) :
    ¬List.Lex (· < ·) bs as :=
  List.lex_asymm (fun h h' => UInt8.lt_asymm h h') h

/-- Texts are in order exactly if their bytes are. -/
theorem lt_iff_lex_bytes {s t : String} : s < t ↔ List.Lex (· < ·) (bytes s) (bytes t) := by
  rw [bytes_eq, bytes_eq]
  constructor
  · exact lex_flatMap
  · intro h
    by_contra hLess
    rcases Decidable.em (t < s) with hMore | hMore
    · exact lex_bytes_asymm h (lex_flatMap hMore)
    · rw [String.le_antisymm hMore hLess] at h
      exact lex_bytes_asymm h h

theorem lex_map_toNat_iff (cs ds : List Char) :
    List.Lex (· < ·) (cs.map Char.toNat) (ds.map Char.toNat) ↔ List.Lex (· < ·) cs ds := by
  have hLess (c d : Char) : c.toNat < d.toNat ↔ c < d := Iff.rfl
  induction cs generalizing ds with
  | nil => cases ds <;> simp
  | cons c cs ih =>
      cases ds with
      | nil => simp
      | cons d ds =>
          simp only [List.map_cons, List.cons_lex_cons_iff, hLess, Char.toNat_inj, ih]

/-- Texts are in order exactly if their scalar values are. -/
theorem lt_iff_lex_scalars {s t : String} : s < t ↔ List.Lex (· < ·) (scalars s) (scalars t) :=
  (lex_map_toNat_iff s.toList t.toList).symm

end TinyScript.Text
