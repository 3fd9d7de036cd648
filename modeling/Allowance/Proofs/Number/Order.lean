import Allowance.Number.Basic

/-! # The order of numbers

Numbers that are not NaN are ordered by their positions, which are pairs in lexicographic order.
So of two such numbers either the first is at most the second, or the second is below the first.
-/

namespace Allowance.Number

variable {a b : Number}

theorem position_isSome (h : a ≠ .double .nan) : ∃ p, a.position? = some p := by
  cases a with
  | int n => exact ⟨_, rfl⟩
  | double d =>
    cases d with
    | nan => exact absurd rfl h
    | infinity negative => exact ⟨_, rfl⟩
    | finite negative units => exact ⟨_, rfl⟩

theorem ne_nan_of_isFinite {b : Bool} (h : a.isFinite? = some b) (hb : b = true) :
    a ≠ .double .nan := by
  rintro rfl
  subst hb
  simp [isFinite?, Double.isFinite] at h

theorem le_eq_false_iff (ha : a ≠ .double .nan) (hb : b ≠ .double .nan) :
    a.le b = false ↔ b.lt a = true := by
  obtain ⟨⟨i, x⟩, hp⟩ := position_isSome ha
  obtain ⟨⟨j, y⟩, hq⟩ := position_isSome hb
  simp only [le, lt, hp, hq, Bool.or_eq_false_iff, Bool.and_eq_false_iff, Bool.or_eq_true,
    Bool.and_eq_true, decide_eq_true_eq, decide_eq_false_iff_not, beq_iff_eq, beq_eq_false_iff_ne]
  omega

end Allowance.Number
