import TinyScript.Proofs.Number.Order
import TinyScript.Proofs.Text.ByteOrder
import TinyScript.Value.Operator

/-!
# Comparisons agree

Six operators compare, and they come from two sources: equality is that of values of every
kind, and the other four are read off one comparison of two numbers or two strings. `Stands`
is what ties them together. Where two values have an order, one of `less`, `equal` and
`greater` says how they stand, and each operator asks whether that is one of those it is about.

## Main results

* `compareNumbers_eq`: numbers compare as their positions.
* `exists_stands`: two values that have an order stand to each other in one way.
* `less_trans`: the order is transitive.
* `comparisons_agree`: the laws of the six operators.
-/

namespace TinyScript.BinaryOp

/-- The operators that ask for an order. -/
def orderings : List BinaryOp :=
  [.less, .lessEq, .greater, .greaterEq]

/-- Whether two values have an order: two strings have one, and two numbers unless one is NaN. -/
def Ordered : Value → Value → Prop
  | .text _, .text _ => True
  | .number x, .number y => x.isNaN = false ∧ y.isNaN = false
  | _, _ => False

/-- `Stands v w o`: the values `v` and `w` have an order, and stand to each other as `o` says. -/
structure Stands (v w : Value) (o : Ordering) : Prop where
  compareValues_eq : compareValues v w = .ok (some o)
  compareValues_swap : compareValues w v = .ok (some o.swap)
  beq_eq : (v == w) = (o == .eq)

/-! ## Numbers -/

section Numbers

variable {x y : Float}

theorem compareNumbers_eq (hx : x.isNaN = false) (hy : y.isNaN = false) :
    compareNumbers x y = some (compare (Number.position x) (Number.position y)) := by
  simp only [compareNumbers, Number.lt_iff_position hx hy, Number.lt_iff_position hy hx,
    Number.beq_iff_position hx hy]
  rcases lt_trichotomy (Number.position x) (Number.position y) with hLess | hEq | hMore
  · rw [if_pos hLess, Int.compare_eq_lt.2 hLess]
  · simp [hEq]
  · rw [if_neg (by omega), if_pos hMore, Int.compare_eq_gt.2 hMore]

theorem compareNumbers_of_isNaN (h : x.isNaN = true ∨ y.isNaN = true) :
    compareNumbers x y = none := by
  have hNone := Number.compare_of_isNaN h
  have hNone' := Number.compare_of_isNaN h.symm
  simp [compareNumbers, Number.lt_iff_compare, Number.beq_iff_compare, hNone, hNone']

theorem stands_numbers (hx : x.isNaN = false) (hy : y.isNaN = false) :
    Stands (.number x) (.number y) (compare (Number.position x) (Number.position y)) where
  compareValues_eq := congrArg Except.ok (compareNumbers_eq hx hy)
  compareValues_swap := by
    rw [Int.compare_swap]
    exact congrArg Except.ok (compareNumbers_eq hy hx)
  beq_eq := by
    change (x == y) = _
    rw [Bool.eq_iff_iff, Number.beq_iff_position hx hy, beq_iff_eq, Int.compare_eq_eq]

end Numbers

/-! ## Strings -/

theorem stands_texts (s t : String) :
    Stands (.text s) (.text t) (compareOfLessAndEq s t) where
  compareValues_eq := rfl
  compareValues_swap := by
    have hSwap := compareOfLessAndEq_eq_swap String.le_antisymm String.le_total String.not_le
      (x := t) (y := s)
    rw [← hSwap]
    rfl
  beq_eq := by
    change (s == t) = _
    rw [Bool.eq_iff_iff, beq_iff_eq, beq_iff_eq,
      compareOfLessAndEq_eq_eq String.le_refl String.not_le]

/-- Two values that have an order stand to each other in one way. -/
theorem exists_stands : ∀ {v w : Value}, Ordered v w → ∃ o, Stands v w o
  | .text s, .text t, _ => ⟨_, stands_texts s t⟩
  | .number _, .number _, ⟨hx, hy⟩ => ⟨_, stands_numbers hx hy⟩

/-! ## The operators -/

theorem relation_ok {holds : Ordering → Bool} {v w : Value} {order : Option Ordering}
    (h : compareValues v w = .ok order) : relation holds v w = .ok (.bool (order.any holds)) := by
  rw [relation, h]
  rfl

theorem relation_error {holds : Ordering → Bool} {v w : Value} {c : Cause}
    (h : compareValues v w = .error c) : relation holds v w = .error c := by
  rw [relation, h]
  rfl

/-- What an operator that asks for an order is about. -/
theorem exists_relation {op : BinaryOp} (h : op ∈ orderings) :
    ∃ holds : Ordering → Bool, ∀ v w, op.apply v w = relation holds v w := by
  simp only [orderings, List.mem_cons, List.not_mem_nil, or_false] at h
  rcases h with rfl | rfl | rfl | rfl
  all_goals exact ⟨_, fun _ _ => rfl⟩

theorem less_iff {v w : Value} :
    BinaryOp.less.apply v w = .ok (.bool true) ↔ compareValues v w = .ok (some .lt) := by
  change relation (· == .lt) v w = _ ↔ _
  cases hOrder : compareValues v w with
  | error c => simp [relation_error hOrder]
  | ok order =>
    rw [relation_ok hOrder]
    cases order <;> simp

theorem less_texts_iff {s t : String} :
    BinaryOp.less.apply (.text s) (.text t) = .ok (.bool true) ↔ s < t := by
  rw [less_iff, ← compareOfLessAndEq_eq_lt]
  simp [compareValues]

theorem less_numbers_iff {x y : Float} :
    BinaryOp.less.apply (.number x) (.number y) = .ok (.bool true) ↔
      (x.isNaN = false ∧ y.isNaN = false) ∧ Number.position x < Number.position y := by
  rw [less_iff, show compareValues (.number x) (.number y) = .ok (compareNumbers x y) from rfl]
  by_cases hNaN : x.isNaN = false ∧ y.isNaN = false
  · rw [compareNumbers_eq hNaN.1 hNaN.2, and_iff_right hNaN, Except.ok.injEq, Option.some.injEq,
      Int.compare_eq_lt]
  · have hSome : x.isNaN = true ∨ y.isNaN = true := by
      rwa [not_and_or, Bool.not_eq_false, Bool.not_eq_false] at hNaN
    rw [compareNumbers_of_isNaN hSome]
    exact iff_of_false (by simp) fun h => hNaN h.1

/-- Less is transitive; a value that another is less than has the other's kind. -/
theorem less_trans : ∀ {u v w : Value}, BinaryOp.less.apply u v = .ok (.bool true) →
    BinaryOp.less.apply v w = .ok (.bool true) → BinaryOp.less.apply u w = .ok (.bool true)
  | .number _, .number _, .number _, huv, hvw => by
    rw [less_numbers_iff] at *
    exact ⟨⟨huv.1.1, hvw.1.2⟩, huv.2.trans hvw.2⟩
  | .text _, .text _, .text _, huv, hvw => by
    rw [less_texts_iff] at *
    exact String.lt_trans huv hvw

/-- Of `less`, `equal` and `greater`, one holds of two values that have an order. -/
theorem Stands.existsUnique {v w : Value} {o : Ordering} (h : Stands v w o) :
    ∃! op : BinaryOp, op ∈ [BinaryOp.less, .eq, .greater] ∧ op.apply v w = .ok (.bool true) := by
  have hLess : BinaryOp.less.apply v w = .ok (.bool (o == .lt)) := relation_ok h.compareValues_eq
  have hEq : BinaryOp.eq.apply v w = .ok (.bool (o == .eq)) := by rw [← h.beq_eq, apply]
  have hMore : BinaryOp.greater.apply v w = .ok (.bool (o == .gt)) :=
    relation_ok h.compareValues_eq
  cases o with
  | lt => exact ⟨.less, by simp [hLess], by simp [hEq, hMore]⟩
  | eq => exact ⟨.eq, by simp [hEq], by simp [hLess, hMore]⟩
  | gt => exact ⟨.greater, by simp [hMore], by simp [hEq, hLess]⟩

theorem Stands.lessEq_eq_not_greater {v w : Value} {o : Ordering} (h : Stands v w o) :
    ∃ b, BinaryOp.greater.apply v w = .ok (.bool b) ∧
      BinaryOp.lessEq.apply v w = .ok (.bool !b) :=
  ⟨_, relation_ok h.compareValues_eq, relation_ok h.compareValues_eq⟩

theorem Stands.greaterEq_eq_not_less {v w : Value} {o : Ordering} (h : Stands v w o) :
    ∃ b, BinaryOp.less.apply v w = .ok (.bool b) ∧
      BinaryOp.greaterEq.apply v w = .ok (.bool !b) :=
  ⟨_, relation_ok h.compareValues_eq, relation_ok h.compareValues_eq⟩

theorem Stands.less_eq_greater_swap {v w : Value} {o : Ordering} (h : Stands v w o) :
    BinaryOp.less.apply v w = BinaryOp.greater.apply w v := by
  change relation (· == .lt) v w = relation (· == .gt) w v
  rw [relation_ok h.compareValues_eq, relation_ok h.compareValues_swap]
  cases o <;> rfl

/-- The operators that ask for an order fail together. -/
theorem orderings_succeed_or_fail (v w : Value) :
    (∀ op ∈ orderings, ∃ b, op.apply v w = .ok (.bool b)) ∨
      ∀ op ∈ orderings, ∃ c, op.apply v w = .error c := by
  cases hOrder : compareValues v w with
  | ok order =>
    refine .inl fun op hop => ?_
    obtain ⟨holds, hApply⟩ := exists_relation hop
    exact ⟨_, (hApply v w).trans (relation_ok hOrder)⟩
  | error c =>
    refine .inr fun op hop => ?_
    obtain ⟨holds, hApply⟩ := exists_relation hop
    exact ⟨c, (hApply v w).trans (relation_error hOrder)⟩

theorem orderings_of_isNaN {x y : Float} (h : x.isNaN = true ∨ y.isNaN = true) {op : BinaryOp}
    (hop : op ∈ orderings) : op.apply (.number x) (.number y) = .ok (.bool false) := by
  obtain ⟨holds, hApply⟩ := exists_relation hop
  have hNone : compareValues (.number x) (.number y) = .ok none :=
    congrArg Except.ok (compareNumbers_of_isNaN h)
  rw [hApply, relation_ok hNone, Option.any_none]

/--
The operators that compare form one order. On two strings, and on two numbers neither of which
is NaN, exactly one of less, equal and greater holds, the other two operators are the
negations of greater and less, and less is greater with the operands exchanged. Less is
transitive, and on strings it is the lexicographic order of the bytes and that of the scalar
values. On all values unequal is the negation of equal; the operators that ask for an order
succeed or fail together, and none of them holds of a number that is NaN.
-/
theorem comparisons_agree :
    (∀ v w : Value, Ordered v w →
      (∃! op : BinaryOp, op ∈ [BinaryOp.less, .eq, .greater] ∧
        op.apply v w = .ok (.bool true)) ∧
      (∃ b, BinaryOp.greater.apply v w = .ok (.bool b) ∧
        BinaryOp.lessEq.apply v w = .ok (.bool !b)) ∧
      (∃ b, BinaryOp.less.apply v w = .ok (.bool b) ∧
        BinaryOp.greaterEq.apply v w = .ok (.bool !b)) ∧
      BinaryOp.less.apply v w = BinaryOp.greater.apply w v) ∧
    (∀ u v w : Value, BinaryOp.less.apply u v = .ok (.bool true) →
      BinaryOp.less.apply v w = .ok (.bool true) →
      BinaryOp.less.apply u w = .ok (.bool true)) ∧
    (∀ s t : String, (BinaryOp.less.apply (.text s) (.text t) = .ok (.bool true) ↔
        List.Lex (· < ·) (Text.bytes s) (Text.bytes t)) ∧
      (BinaryOp.less.apply (.text s) (.text t) = .ok (.bool true) ↔
        List.Lex (· < ·) (Text.scalars s) (Text.scalars t))) ∧
    (∀ v w : Value, ∃ b, BinaryOp.eq.apply v w = .ok (.bool b) ∧
      BinaryOp.notEq.apply v w = .ok (.bool !b)) ∧
    (∀ v w : Value, (∀ op ∈ orderings, ∃ b, op.apply v w = .ok (.bool b)) ∨
      ∀ op ∈ orderings, ∃ c, op.apply v w = .error c) ∧
    ∀ x y : Float, x.isNaN = true ∨ y.isNaN = true → ∀ op ∈ orderings,
      op.apply (.number x) (.number y) = .ok (.bool false) := by
  refine ⟨fun v w hOrdered => ?_, fun u v w => less_trans, fun s t => ?_,
    fun v w => ⟨v == w, rfl, rfl⟩, orderings_succeed_or_fail,
    fun x y hNaN op => orderings_of_isNaN hNaN⟩
  · obtain ⟨o, h⟩ := exists_stands hOrdered
    exact ⟨h.existsUnique, h.lessEq_eq_not_greater, h.greaterEq_eq_not_less,
      h.less_eq_greater_swap⟩
  · rw [less_texts_iff]
    exact ⟨Text.lt_iff_lex_bytes, Text.lt_iff_lex_scalars⟩

end TinyScript.BinaryOp
