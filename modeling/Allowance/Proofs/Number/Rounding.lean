import Allowance.Number.Rounding
import Mathlib.Algebra.Order.Floor.Ring
import Mathlib.Data.Rat.Floor
import Mathlib.Tactic.Linarith

/-! # Rounding rational numbers

A rational number is rounded to the nearest integer, and a half to the even one of its neighbours.
Rounding a quotient of natural numbers is rounding the rational number. An integer is never crossed,
and the error is a half at most.
-/

namespace Allowance

/-- The integer nearest to a rational number; a half goes to the even neighbour. -/
def halfEven (x : ℚ) : ℤ :=
  if 2 * Int.fract x < 1 ∨ 2 * Int.fract x = 1 ∧ ⌊x⌋ % 2 = 0 then ⌊x⌋ else ⌊x⌋ + 1

variable {x y : ℚ} {n : ℤ}

theorem floor_le_halfEven (x : ℚ) : ⌊x⌋ ≤ halfEven x := by
  unfold halfEven
  split <;> omega

theorem halfEven_le_floor (x : ℚ) : halfEven x ≤ ⌊x⌋ + 1 := by
  unfold halfEven
  split <;> omega

@[simp] theorem halfEven_intCast (n : ℤ) : halfEven n = n := by
  simp [halfEven]

theorem le_halfEven (h : (n : ℚ) ≤ x) : n ≤ halfEven x :=
  (Int.le_floor.mpr h).trans (floor_le_halfEven x)

theorem halfEven_le (h : x ≤ n) : halfEven x ≤ n := by
  rcases h.lt_or_eq with h | rfl
  · have hfloor : ⌊x⌋ < n := Int.floor_lt.mpr h
    have := halfEven_le_floor x
    omega
  · rw [halfEven_intCast]

theorem halfEven_mono (h : x ≤ y) : halfEven x ≤ halfEven y := by
  rcases (Int.floor_le_floor h).lt_or_eq with hfloor | hfloor
  · have hx := halfEven_le_floor x
    have hy := floor_le_halfEven y
    omega
  · have hfract : Int.fract x ≤ Int.fract y := by
      simp only [Int.fract, hfloor]
      linarith
    unfold halfEven
    rw [hfloor]
    split
    · split <;> omega
    · rename_i hup
      rw [if_neg fun hdown => hup ?_]
      rcases hdown with hlt | ⟨heq, heven⟩
      · exact Or.inl (by linarith)
      · rcases hfract.lt_or_eq with hlt | heq'
        · exact Or.inl (by linarith)
        · exact Or.inr ⟨heq' ▸ heq, heven⟩

theorem two_mul_halfEven_le (x : ℚ) : 2 * halfEven x ≤ 2 * x + 1 := by
  have hfract := Int.self_sub_floor x
  have hnonneg := Int.fract_nonneg x
  unfold halfEven
  split
  · linarith
  · rename_i h
    push_cast
    have : 1 ≤ 2 * Int.fract x := not_lt.mp fun hlt => h (Or.inl hlt)
    linarith

theorem le_two_mul_halfEven (x : ℚ) : 2 * x ≤ 2 * halfEven x + 1 := by
  have hfract := Int.self_sub_floor x
  have hlt := Int.fract_lt_one x
  unfold halfEven
  split
  · rename_i h
    have : 2 * Int.fract x ≤ 1 := h.elim le_of_lt fun h => h.1.le
    linarith
  · push_cast
    linarith

theorem halfEven_of_near (h : |x - n| < 1 / 2) : halfEven x = n := by
  obtain ⟨hlow, hhigh⟩ := abs_lt.mp h
  have hlow' := two_mul_halfEven_le x
  have hhigh' := le_two_mul_halfEven x
  have h₁ : n < halfEven x + 1 := by
    have : (n : ℚ) < halfEven x + 1 := by linarith
    exact_mod_cast this
  have h₂ : halfEven x < n + 1 := by
    have : (halfEven x : ℚ) < n + 1 := by linarith
    exact_mod_cast this
  omega

theorem halfEven_of_between (hlow : n < 2 * x) (hhigh : 2 * x < n + 1) :
    halfEven x = (n + 1) / 2 := by
  have hlow' := two_mul_halfEven_le x
  have hhigh' := le_two_mul_halfEven x
  have h₁ : n < 2 * halfEven x + 1 := by
    have : (n : ℚ) < 2 * halfEven x + 1 := lt_of_lt_of_le hlow hhigh'
    exact_mod_cast this
  have h₂ : 2 * halfEven x < n + 2 := by
    have : (2 * halfEven x : ℚ) < n + 2 := by linarith
    exact_mod_cast this
  omega

/-- Rounding a quotient is rounding the rational number. -/
theorem roundHalfEven_eq (num : ℕ) {den : ℕ} (hden : 0 < den) :
    (roundHalfEven num den : ℤ) = halfEven (num / den) := by
  have hfloor : ⌊(num / den : ℚ)⌋ = (num / den : ℕ) := Rat.floor_natCast_div_natCast num den
  have hpos : (0 : ℚ) < den := Nat.cast_pos.mpr hden
  have hdiv : (num : ℚ) = den * (num / den : ℕ) + (num % den : ℕ) := by
    exact_mod_cast (Nat.div_add_mod num den).symm
  have hfract : Int.fract (num / den : ℚ) = (num % den : ℕ) / den := by
    rw [Int.fract, hfloor, eq_div_iff hpos.ne', sub_mul, div_mul_cancel₀ _ hpos.ne',
      Int.cast_natCast]
    linarith
  have hlt : 2 * Int.fract (num / den : ℚ) < 1 ↔ 2 * (num % den) < den := by
    rw [hfract, ← mul_div_assoc, div_lt_one hpos]
    exact_mod_cast Iff.rfl
  have heq : 2 * Int.fract (num / den : ℚ) = 1 ↔ 2 * (num % den) = den := by
    rw [hfract, ← mul_div_assoc, div_eq_one_iff_eq hpos.ne']
    exact_mod_cast Iff.rfl
  unfold roundHalfEven halfEven
  simp only [hlt, heq, hfloor, Bool.or_eq_true, Bool.and_eq_true, decide_eq_true_eq, beq_iff_eq]
  split <;> split <;> omega

section Quotient

variable {num den m : ℕ}

theorem le_roundHalfEven_of_mul_le (hden : 0 < den) (h : m * den ≤ num) :
    m ≤ roundHalfEven num den :=
  ((Nat.le_div_iff_mul_le hden).mpr h).trans (le_roundHalfEven num den)

theorem roundHalfEven_le_of_le_mul (hden : 0 < den) (h : num ≤ m * den) :
    roundHalfEven num den ≤ m := by
  have hle : (num / den : ℚ) ≤ (m : ℤ) := by
    rw [div_le_iff₀ (Nat.cast_pos.mpr hden)]
    exact_mod_cast h
  have := halfEven_le hle
  rw [← roundHalfEven_eq num hden] at this
  exact_mod_cast this

theorem roundHalfEven_mono {num' : ℕ} (hden : 0 < den) (h : num ≤ num') :
    roundHalfEven num den ≤ roundHalfEven num' den := by
  have hle : (num / den : ℚ) ≤ num' / den :=
    (div_le_div_iff_of_pos_right (Nat.cast_pos.mpr hden)).mpr (Nat.cast_le.mpr h)
  have := halfEven_mono hle
  rw [← roundHalfEven_eq num hden, ← roundHalfEven_eq num' hden] at this
  exact_mod_cast this

end Quotient

end Allowance
