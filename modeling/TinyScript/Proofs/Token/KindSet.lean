import Mathlib.Data.Nat.Bitwise
import TinyScript.Token.KindSet

/-!
# Kinds as bits of a word

A `KindSet` is a word, and what it means is a set of kinds. The two are tied together by
`Represents`: the bits that are set in the word are those of the kinds in a list, and no
others. That leaves no stray bit in the word, so a word is determined by the kinds it
stands for, and sets that were built along different ways are equal values as soon as they
have the same members.

## Main results

* `toNat_bit`, `bit_and_bit`: every kind has a bit of its own inside the word.
* `Represents.insert`, `represents_ofList`: what one insertion and a row of insertions do.
* `Represents.contains_iff`, `Represents.eq_iff`: membership and equality, read off the bits.
* `ofList_represents_members`: the set of the kinds in a list.
-/

namespace TinyScript.Token.KindSet

/-! ## Single bits -/

/-- The shift that makes the bit of a kind stays inside the word. -/
theorem toNat_bit (k : Kind) : (bit k).toNat = 2 ^ k.index := by
  have hIndex : k.index < 64 := k.index_lt
  have hShift : k.index.toUInt64.toNat % 64 = k.index := by
    rw [Nat.toUInt64_eq, UInt64.toNat_ofNat']
    omega
  have hPower : 2 ^ k.index < 2 ^ 64 := Nat.pow_lt_pow_right (by decide) hIndex
  rw [bit, UInt64.toNat_shiftLeft, hShift, UInt64.toNat_one, Nat.one_shiftLeft,
    Nat.mod_eq_of_lt hPower]

/-- Different kinds do not share a bit. -/
theorem bit_and_bit {j k : Kind} (h : j ≠ k) : bit j &&& bit k = 0 := by
  have hIndex : j.index ≠ k.index := fun hEq => h (Kind.index_inj hEq)
  rw [← UInt64.toNat_inj, UInt64.toNat_and, toNat_bit, toNat_bit, Nat.and_two_pow,
    Nat.testBit_two_pow_of_ne hIndex]
  simp

/-- To ask for a kind is to look at its bit. -/
theorem contains_eq_testBit (s : KindSet) (k : Kind) :
    s.contains k = s.word.toNat.testBit k.index := by
  have hZero : s.word &&& bit k = 0 ↔ s.word.toNat.testBit k.index = false := by
    rw [← UInt64.toNat_inj, UInt64.toNat_and, toNat_bit, Nat.and_two_pow]
    cases s.word.toNat.testBit k.index <;> simp
  rw [contains, Bool.eq_iff_iff, bne_iff_ne, ne_eq, hZero, Bool.not_eq_false]

/-- To add a kind is to set its bit. -/
theorem testBit_insert (s : KindSet) (k : Kind) (i : Nat) :
    (s.insert k).word.toNat.testBit i = (s.word.toNat.testBit i || decide (k.index = i)) := by
  rw [insert, UInt64.toNat_or, toNat_bit, Nat.testBit_or, Nat.testBit_two_pow]

/-! ## Words and lists of kinds -/

/-- The bits that are set in the word are those of the kinds in the list. -/
def Represents (s : KindSet) (ks : List Kind) : Prop :=
  ∀ i, s.word.toNat.testBit i = true ↔ ∃ k ∈ ks, k.index = i

theorem represents_empty : empty.Represents [] := by
  intro i
  simp [empty]

namespace Represents

variable {s t : KindSet} {js ks : List Kind}

/-- One insertion adds one kind, whether it is new or not. -/
theorem insert (h : s.Represents ks) (k : Kind) : (s.insert k).Represents (ks ++ [k]) := by
  intro i
  rw [testBit_insert, Bool.or_eq_true, decide_eq_true_iff, h i]
  simp [or_and_right, exists_or]

/-- A row of insertions adds all its kinds. -/
theorem foldl_insert (h : s.Represents ks) (js : List Kind) :
    (js.foldl KindSet.insert s).Represents (ks ++ js) := by
  induction js generalizing s ks with
  | nil => simpa using h
  | cons j js ih =>
      have hRest := ih (h.insert j)
      rwa [List.append_assoc] at hRest

/-- The members are the kinds in the list, since no other kind has one of their bits. -/
theorem contains_iff (h : s.Represents ks) (k : Kind) : s.contains k = true ↔ k ∈ ks := by
  rw [contains_eq_testBit, h]
  constructor
  · rintro ⟨j, hMem, hIndex⟩
    rwa [← Kind.index_inj hIndex]
  · exact fun hMem => ⟨k, hMem, rfl⟩

/-- Two words are equal if they stand for the same kinds, since they have no other bits. -/
theorem eq_iff (hs : s.Represents js) (ht : t.Represents ks) :
    s = t ↔ ∀ k, k ∈ js ↔ k ∈ ks := by
  constructor
  · rintro rfl k
    rw [← hs.contains_iff, ht.contains_iff]
  · intro hMem
    have hWord : s.word = t.word := by
      rw [← UInt64.toNat_inj]
      refine Nat.eq_of_testBit_eq fun i => ?_
      rw [Bool.eq_iff_iff, hs i, ht i]
      simp only [hMem]
    cases s
    cases t
    exact congrArg KindSet.mk hWord

end Represents

theorem represents_ofList (ks : List Kind) : (ofList ks).Represents ks :=
  represents_empty.foldl_insert ks

/--
**A word holds a set of kinds faithfully.** The bit of every kind lies inside the word and
no two kinds share one. So the set that is built from a list has exactly the kinds in the
list as members, and two lists give the same word if and only if they have the same
members, in whatever order and however often.
-/
theorem ofList_represents_members (js ks : List Kind) :
    (∀ k : Kind, k.index < 64 ∧ (bit k).toNat = 2 ^ k.index) ∧
    (∀ j k : Kind, j ≠ k → bit j &&& bit k = 0) ∧
    (∀ k, (ofList ks).contains k = true ↔ k ∈ ks) ∧
    (ofList js = ofList ks ↔ ∀ k, k ∈ js ↔ k ∈ ks) := by
  refine ⟨fun k => ⟨k.index_lt, toNat_bit k⟩, fun j k h => bit_and_bit h, ?_, ?_⟩
  · exact (represents_ofList ks).contains_iff
  · exact (represents_ofList js).eq_iff (represents_ofList ks)

end TinyScript.Token.KindSet
