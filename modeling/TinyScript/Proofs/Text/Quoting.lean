import Mathlib
import TinyScript.Text.Quoted

/-!
# Quoted text is read in one way

A quoted text stands between quotes, and a quote inside it is escaped. So wherever a quoted
text stands, its end can be found, and between the quotes every character is given back: one
that is neither a quote nor a backslash stands for itself, and a backslash is followed by
a letter that names a character or by `u` and a code point, whose digits end at a brace.
This holds whichever characters are taken for visible.

## Main results

* `toDigits_append_inj`: the digits of a code point.
* `quotedChar_append_inj`: one character.
* `quotedChars_append_inj`: a quoted text, whatever stands behind it.
-/

namespace TinyScript.Text

/-! ## Runs -/

/-- A run of a class is cut off where the class ends. -/
theorem takeWhile_append_of_head? {p : Char → Bool} {cs rest : List Char}
    (hAll : ∀ c ∈ cs, p c = true) (hRest : ∀ c ∈ rest.head?, p c = false) :
    (cs ++ rest).takeWhile p = cs ∧ (cs ++ rest).dropWhile p = rest := by
  rw [List.takeWhile_append_of_pos hAll, List.dropWhile_append_of_pos hAll]
  cases rest with
  | nil => simp
  | cons c rest =>
    have hStop := hRest c rfl
    simp [hStop]

/-- Runs of one class with the same text end at the same place. -/
theorem append_inj_of_run {p : Char → Bool} {as bs r r' : List Char}
    (has : ∀ c ∈ as, p c = true) (hbs : ∀ c ∈ bs, p c = true) (hr : ∀ c ∈ r.head?, p c = false)
    (hr' : ∀ c ∈ r'.head?, p c = false) (h : as ++ r = bs ++ r') : as = bs ∧ r = r' := by
  obtain ⟨hTake, hDrop⟩ := takeWhile_append_of_head? has hr
  obtain ⟨hTake', hDrop'⟩ := takeWhile_append_of_head? hbs hr'
  rw [h] at hTake hDrop
  exact ⟨hTake.symm.trans hTake', hDrop.symm.trans hDrop'⟩

/-! ## Code points -/

theorem exists_digitChar_of_mem {n : Nat} {c : Char} (h : c ∈ Nat.toDigits 16 n) :
    ∃ digit : Nat, c = digit.digitChar := by
  induction n using Nat.strongRecOn with
  | ind n ih =>
      rw [Nat.toDigits_eq_if (by decide)] at h
      split at h
      · exact ⟨n, List.mem_singleton.1 h⟩
      · rcases List.mem_append.1 h with hFront | hLast
        · exact ih (n / 16) (by omega) hFront
        · exact ⟨n % 16, List.mem_singleton.1 hLast⟩

theorem digitChar_inj :
    ∀ m < 16, ∀ n < 16, Nat.digitChar m = Nat.digitChar n → m = n := by
  decide

theorem toDigits_inj {m n : Nat} (h : Nat.toDigits 16 m = Nat.toDigits 16 n) : m = n := by
  induction m using Nat.strongRecOn generalizing n with
  | ind m ih =>
      have hShort (k : Nat) : (Nat.toDigits 16 k).length ≤ 1 ↔ k < 16 :=
        Nat.length_toDigits_le_iff (by decide) (by decide)
      have hBoth : m < 16 ↔ n < 16 := by rw [← hShort, ← hShort, h]
      by_cases hSmall : m < 16
      · rw [Nat.toDigits_of_lt_base hSmall, Nat.toDigits_of_lt_base (hBoth.1 hSmall)] at h
        exact digitChar_inj m hSmall n (hBoth.1 hSmall) (List.singleton_inj.1 h)
      · rw [Nat.toDigits_of_base_le (by decide) (n := m) (by omega),
          Nat.toDigits_of_base_le (by decide) (n := n) (by omega)] at h
        obtain ⟨hFront, hLast⟩ := List.append_inj' h rfl
        have hDiv : m / 16 = n / 16 := ih (m / 16) (by omega) hFront
        have hMod : m % 16 = n % 16 := digitChar_inj _ (Nat.mod_lt _ (by decide)) _
          (Nat.mod_lt _ (by decide)) (List.singleton_inj.1 hLast)
        omega

/-- The digits of a code point end at the brace. -/
theorem toDigits_append_inj {m n : Nat} {r r' : List Char}
    (h : Nat.toDigits 16 m ++ '\x7d' :: r = Nat.toDigits 16 n ++ '\x7d' :: r') :
    m = n ∧ r = r' := by
  have hDigit (k : Nat) (c : Char) (hc : c ∈ Nat.toDigits 16 k) : (c != '\x7d') = true := by
    obtain ⟨digit, rfl⟩ := exists_digitChar_of_mem hc
    exact bne_iff_ne.2 (Nat.digitChar_ne '\x7d' (by decide))
  have hBrace (rest : List Char) (c : Char) (hc : c ∈ ('\x7d' :: rest).head?) :
      (c != '\x7d') = false := by
    rw [← Option.some.inj hc, bne_self_eq_false]
  obtain ⟨hDigits, hRest⟩ := append_inj_of_run (hDigit m) (hDigit n) (hBrace r) (hBrace r') h
  exact ⟨toDigits_inj hDigits, (List.cons.inj hRest).2⟩

/-! ## Characters -/

/-- The character that a letter behind a backslash names. -/
def named? : Char → Option Char
  | '"' => some '"'
  | '\\' => some '\\'
  | 'n' => some '\n'
  | 'r' => some '\r'
  | 't' => some '\t'
  | '0' => some '\x00'
  | _ => none

/-- A character stands for itself, is named by a letter, or is given by its code point. -/
theorem quotedChar_cases (visible : Char → Bool) (c : Char) :
    (quotedChar visible c = [c] ∧ c ≠ '"' ∧ c ≠ '\\') ∨
      (∃ letter, quotedChar visible c = ['\\', letter] ∧ named? letter = some c) ∨
        quotedChar visible c = codePointEscape c := by
  unfold quotedChar
  split
  · exact .inr (.inl ⟨_, rfl, rfl⟩)
  · exact .inr (.inl ⟨_, rfl, rfl⟩)
  · exact .inr (.inl ⟨_, rfl, rfl⟩)
  · exact .inr (.inl ⟨_, rfl, rfl⟩)
  · exact .inr (.inl ⟨_, rfl, rfl⟩)
  · exact .inr (.inl ⟨_, rfl, rfl⟩)
  · next hQuote hBackslash _ _ _ _ =>
    by_cases hVisible : visible c = true
    · exact .inl ⟨if_pos hVisible, hQuote, hBackslash⟩
    · exact .inr (.inr (if_neg hVisible))

variable {visible : Char → Bool}

/-- A quoted character is given back, whatever stands behind it. -/
theorem quotedChar_append_inj {c d : Char} {r r' : List Char}
    (h : quotedChar visible c ++ r = quotedChar visible d ++ r') : c = d ∧ r = r' := by
  -- No letter that names a character is the one in front of a code point.
  have hLetter {letter : Char} (hNamed : (named? letter).isSome = true) : letter ≠ 'u' := by
    rintro rfl
    cases hNamed
  rcases quotedChar_cases visible c with ⟨hc, -, hSelf⟩ | ⟨letter, hc, hNamed⟩ | hc <;>
    rcases quotedChar_cases visible d with ⟨hd, -, hSelf'⟩ | ⟨letter', hd, hNamed'⟩ | hd <;>
    rw [hc, hd] at h
  · exact List.cons.inj h
  · exact absurd (List.cons.inj h).1 hSelf
  · exact absurd (List.cons.inj h).1 hSelf
  · exact absurd (List.cons.inj h).1.symm hSelf'
  · obtain ⟨rfl, hRest⟩ := List.cons.inj (List.cons.inj h).2
    rw [hNamed] at hNamed'
    exact ⟨Option.some.inj hNamed', hRest⟩
  · exact absurd (List.cons.inj (List.cons.inj h).2).1 (hLetter (by simp [hNamed]))
  · exact absurd (List.cons.inj h).1.symm hSelf'
  · exact absurd (List.cons.inj (List.cons.inj h).2).1.symm (hLetter (by simp [hNamed']))
  · simp only [codePointEscape, List.cons_append, List.append_assoc, List.nil_append,
      List.cons.injEq, true_and] at h
    obtain ⟨hCode, hRest⟩ := toDigits_append_inj h
    exact ⟨Char.toNat_inj.1 hCode, hRest⟩

theorem quotedChar_append_ne (c : Char) (r r' : List Char) :
    quotedChar visible c ++ r ≠ '"' :: r' := by
  rcases quotedChar_cases visible c with ⟨hc, hSelf, -⟩ | ⟨letter, hc, -⟩ | hc
  · simpa [hc] using fun h => absurd h hSelf
  · simp [hc]
  · simp [hc, codePointEscape]

/-! ## Texts -/

theorem flatMap_quotedChar_append_inj {cs ds r r' : List Char}
    (h : cs.flatMap (quotedChar visible) ++ '"' :: r =
      ds.flatMap (quotedChar visible) ++ '"' :: r') : cs = ds ∧ r = r' := by
  induction cs generalizing ds with
  | nil =>
      cases ds with
      | nil => exact ⟨rfl, (List.cons.inj h).2⟩
      | cons d ds =>
          rw [List.flatMap_cons, List.append_assoc] at h
          exact absurd h.symm (quotedChar_append_ne d _ _)
  | cons c cs ih =>
      rw [List.flatMap_cons, List.append_assoc] at h
      cases ds with
      | nil => exact absurd h (quotedChar_append_ne c _ _)
      | cons d ds =>
          rw [List.flatMap_cons, List.append_assoc] at h
          obtain ⟨rfl, hMore⟩ := quotedChar_append_inj h
          obtain ⟨rfl, hRest⟩ := ih hMore
          exact ⟨rfl, hRest⟩

/-- A quoted text is given back, whatever stands behind it. -/
theorem quotedChars_append_inj {cs ds r r' : List Char}
    (h : quotedChars visible cs ++ r = quotedChars visible ds ++ r') : cs = ds ∧ r = r' := by
  simp only [quotedChars, List.cons_append, List.append_assoc, List.nil_append] at h
  exact flatMap_quotedChar_append_inj (List.cons.inj h).2

end TinyScript.Text
