import Allowance.Proofs.Number.Rounding
import Allowance.Proofs.Number.Value
import Mathlib.Data.Nat.Log

/-! # The nearest double

A number with at most 53 significant bits lies on the grid of every double near it, so rounding to a
double does not cross it. Such a number is a double itself unless it is too large, and an integer
that is rounded to itself is such a number. Rounding keeps the order of numbers.
-/

namespace Allowance

theorem twoTo_le_twoTo {m n : ℕ} (h : m ≤ n) : twoTo m ≤ twoTo n :=
  Nat.pow_le_pow_right (by decide) h

theorem twoTo_lt_twoTo {m n : ℕ} : twoTo m < twoTo n ↔ m < n :=
  Nat.pow_lt_pow_iff_right (by decide)

def FewBits (n : ℕ) : Prop := ∃ m j, m < twoTo 53 ∧ n = m * twoTo j

theorem FewBits.mul_twoTo {n : ℕ} (h : FewBits n) (k : ℕ) : FewBits (n * twoTo k) := by
  obtain ⟨m, j, hm, rfl⟩ := h
  exact ⟨m, j + k, hm, by rw [Nat.mul_assoc, twoTo_add]⟩

theorem FewBits.mul_unitsPerOne {n : ℕ} (h : FewBits n) : FewBits (n * Double.unitsPerOne) :=
  h.mul_twoTo 1074

theorem fewBits_twoTo (j : ℕ) : FewBits (twoTo j) := ⟨1, j, by decide, (Nat.one_mul _).symm⟩

theorem fewBits_of_lt {n : ℕ} (h : n < twoTo 53) : FewBits n := ⟨n, 0, h, (Nat.mul_one n).symm⟩

namespace Double

variable {num num' den n x : ℕ}

/-- The units of the double nearest to `num / den`, if the doubles went on without an end. -/
def nearestUnits (num den : ℕ) : ℕ :=
  let scaled := num * unitsPerOne
  let step := twoTo (excessBits (scaled / den))
  roundHalfEven scaled (den * step) * step

theorem ofRatio_eq (negative : Bool) (num den : ℕ) : ofRatio negative num den =
    if unitsBeyond ≤ nearestUnits num den then .infinity negative
    else .finite negative (nearestUnits num den) := rfl

theorem ofRatio_ne_nan (negative : Bool) (num den : ℕ) : ofRatio negative num den ≠ .nan := by
  rw [ofRatio_eq]
  split <;> simp

theorem ofDecimal_ne_nan (negative : Bool) (coefficient : ℕ) (exponent : ℤ) :
    ofDecimal negative coefficient exponent ≠ .nan := by
  unfold ofDecimal
  repeat' split
  all_goals simp [ofRatio_ne_nan]

/-- Where the grid is wider than one unit, a magnitude has all its bits. -/
theorem twoTo_le_of_excess {units s : ℕ} (h : excessBits units = s) (hs : 0 < s) :
    twoTo (s + 52) ≤ units := by
  have hlog : units.log2 = s + 52 := by
    unfold excessBits at h
    omega
  have hne : units ≠ 0 := by
    rintro rfl
    simp at hlog
  rw [← hlog]
  exact Nat.log2_self_le hne

theorem lt_twoTo_of_excess {units s : ℕ} (h : excessBits units = s) : units < twoTo (s + 53) := by
  have hlog : units.log2 + 1 ≤ s + 53 := by
    unfold excessBits at h
    omega
  exact Nat.lt_log2_self.trans_le (twoTo_le_twoTo hlog)

theorem le_nearestUnits (hden : 0 < den) (hx : FewBits x) (h : x * den ≤ num * unitsPerOne) :
    x ≤ nearestUnits num den := by
  obtain ⟨m, j, hm, rfl⟩ := hx
  unfold nearestUnits
  dsimp only
  generalize num * unitsPerOne = scaled at h ⊢
  generalize hs : excessBits (scaled / den) = s
  have hstep : 0 < den * twoTo s := Nat.mul_pos hden (twoTo_pos s)
  rcases Nat.lt_or_ge j s with hlt | hle
  · -- The number lies below the power of two that the rounded magnitude starts from.
    have hunits : twoTo (s + 52) ≤ scaled / den := twoTo_le_of_excess hs (by omega)
    have hscaled : twoTo 52 * (den * twoTo s) ≤ scaled := by
      rw [Nat.mul_left_comm, ← twoTo_add, Nat.add_comm, Nat.mul_comm]
      exact (Nat.le_div_iff_mul_le hden).mp hunits
    calc m * twoTo j ≤ twoTo 53 * twoTo j := Nat.mul_le_mul_right _ hm.le
      _ = twoTo (53 + j) := (twoTo_add 53 j).symm
      _ ≤ twoTo (52 + s) := twoTo_le_twoTo (by omega)
      _ = twoTo 52 * twoTo s := twoTo_add 52 s
      _ ≤ _ := Nat.mul_le_mul_right _ (le_roundHalfEven_of_mul_le hstep hscaled)
  · -- The number is a multiple of the step.
    obtain ⟨i, rfl⟩ := Nat.exists_eq_add_of_le hle
    rw [Nat.add_comm, twoTo_add, ← Nat.mul_assoc] at h ⊢
    rw [Nat.mul_right_comm] at h
    refine Nat.mul_le_mul_right _ (le_roundHalfEven_of_mul_le hstep ?_)
    rwa [← Nat.mul_assoc]

theorem nearestUnits_le (hden : 0 < den) (hx : FewBits x) (h : num * unitsPerOne ≤ x * den) :
    nearestUnits num den ≤ x := by
  obtain ⟨m, j, hm, rfl⟩ := hx
  unfold nearestUnits
  dsimp only
  generalize num * unitsPerOne = scaled at h ⊢
  generalize hs : excessBits (scaled / den) = s
  have hstep : 0 < den * twoTo s := Nat.mul_pos hden (twoTo_pos s)
  rcases Nat.lt_or_ge j s with hlt | hle
  · -- The number would have to reach the power of two that the magnitude starts from.
    have hunits : twoTo (s + 52) ≤ scaled / den := twoTo_le_of_excess hs (by omega)
    have hsmall : scaled / den ≤ m * twoTo j := Nat.div_le_of_le_mul (h.trans_eq (Nat.mul_comm _ _))
    have hlarge : m * twoTo j < twoTo (53 + j) := by
      rw [twoTo_add]
      exact Nat.mul_lt_mul_of_pos_right hm (twoTo_pos j)
    have hlt' : twoTo (s + 52) < twoTo (53 + j) := (hunits.trans hsmall).trans_lt hlarge
    have := twoTo_lt_twoTo.mp hlt'
    omega
  · obtain ⟨i, rfl⟩ := Nat.exists_eq_add_of_le hle
    rw [Nat.add_comm, twoTo_add, ← Nat.mul_assoc] at h ⊢
    rw [Nat.mul_right_comm] at h
    refine Nat.mul_le_mul_right _ (roundHalfEven_le_of_le_mul hstep ?_)
    rwa [← Nat.mul_assoc]

theorem nearestUnits_eq (hden : 0 < den) (hx : FewBits x) (h : num * unitsPerOne = x * den) :
    nearestUnits num den = x :=
  (nearestUnits_le hden hx h.le).antisymm (le_nearestUnits hden hx h.ge)

theorem fewBits_of_nearestUnits (h : nearestUnits n 1 = n * unitsPerOne) : FewBits n := by
  unfold nearestUnits at h
  dsimp only at h
  rw [Nat.div_one, Nat.one_mul] at h
  generalize hs : excessBits (n * unitsPerOne) = s at h
  generalize roundHalfEven (n * unitsPerOne) (twoTo s) = m at h
  have hm : m < twoTo 53 := by
    have hlt := lt_twoTo_of_excess hs
    rw [← h, Nat.add_comm, twoTo_add] at hlt
    exact Nat.lt_of_mul_lt_mul_right hlt
  unfold unitsPerOne at h
  rcases Nat.le_total 1074 s with hle | hle
  · obtain ⟨i, rfl⟩ := Nat.exists_eq_add_of_le hle
    rw [Nat.add_comm, twoTo_add, ← Nat.mul_assoc] at h
    exact ⟨m, i, hm, (Nat.mul_right_cancel (twoTo_pos 1074) h).symm⟩
  · obtain ⟨i, hi⟩ := Nat.exists_eq_add_of_le hle
    rw [hi, Nat.add_comm, twoTo_add, ← Nat.mul_assoc] at h
    have hmul : m = n * twoTo i := Nat.mul_right_cancel (twoTo_pos s) h
    refine fewBits_of_lt (lt_of_le_of_lt ?_ hm)
    exact hmul ▸ Nat.le_mul_of_pos_right n (twoTo_pos i)

theorem nearestUnits_mono (hden : 0 < den) (h : num ≤ num') :
    nearestUnits num den ≤ nearestUnits num' den := by
  have hscaled : num * unitsPerOne ≤ num' * unitsPerOne := Nat.mul_le_mul_right _ h
  have hdiv : num * unitsPerOne / den ≤ num' * unitsPerOne / den := Nat.div_le_div_right hscaled
  by_cases hs : excessBits (num * unitsPerOne / den) = excessBits (num' * unitsPerOne / den)
  · -- Both lie on one grid.
    unfold nearestUnits
    dsimp only
    rw [hs]
    refine Nat.mul_le_mul_right _ (roundHalfEven_mono ?_ hscaled)
    exact Nat.mul_pos hden (twoTo_pos _)
  · -- A power of two lies between them.
    generalize hs' : excessBits (num' * unitsPerOne / den) = s at hs
    have hlt : excessBits (num * unitsPerOne / den) < s := by
      refine lt_of_le_of_ne (hs' ▸ ?_) hs
      unfold excessBits
      rw [Nat.log2_eq_log_two, Nat.log2_eq_log_two]
      exact Nat.sub_le_sub_right (Nat.log_mono_right hdiv) 52
    have hlow : num * unitsPerOne ≤ twoTo (s + 52) * den := by
      refine (Nat.div_lt_iff_lt_mul hden).mp ?_ |>.le
      exact (lt_twoTo_of_excess rfl).trans_le (twoTo_le_twoTo (by omega))
    have hhigh : twoTo (s + 52) * den ≤ num' * unitsPerOne :=
      (Nat.le_div_iff_mul_le hden).mp (twoTo_le_of_excess hs' (by omega))
    exact (nearestUnits_le hden (fewBits_twoTo _) hlow).trans
      (le_nearestUnits hden (fewBits_twoTo _) hhigh)

end Double

end Allowance
