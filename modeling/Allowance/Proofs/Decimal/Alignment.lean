import Allowance.Proofs.Decimal.Arithmetic

/-! # Dropping digits

A decimal that is aligned to an exponent becomes a whole number of units of that exponent, as its
magnitude in these units rounds. The integer that a decimal is, is the whole part of its magnitude.
-/

namespace Allowance.Decimal

variable {negative : Bool} {c places : ℕ} {e exponent : ℤ} {b : Decimal} {rounding : Rounding}

theorem magnitude_of_nonneg (he : 0 ≤ e) : magnitude c e = (c * tenTo e.toNat : ℕ) := by
  rw [magnitude, Nat.cast_mul, cast_tenTo, Int.toNat_of_nonneg he]

theorem magnitude_of_neg (he : e < 0) : magnitude c e = c / tenTo (-e).toNat := by
  rw [magnitude, cast_tenTo, Int.toNat_of_nonneg (by omega), zpow_neg, div_inv_eq_mul]

theorem floor_magnitude : ⌊magnitude c e⌋ =
    if 0 ≤ e then ((c * tenTo e.toNat : ℕ) : ℤ) else (c / tenTo (-e).toNat : ℕ) := by
  split
  case isTrue he => rw [magnitude_of_nonneg he, Int.floor_natCast]
  case isFalse he =>
    rw [magnitude_of_neg (not_le.mp he)]
    exact Rat.floor_natCast_div_natCast _ _

theorem div_tenTo_of_digitCount (h : digitCount c < places) : c / tenTo places = 0 :=
  Nat.div_eq_of_lt ((lt_tenTo_digitCount c).trans_le (tenTo_le_tenTo.mpr h.le))

theorem toInt_finite : toInt (.finite negative c e) =
    .ok (if negative then -⌊magnitude c e⌋ else ⌊magnitude c e⌋) := by
  rw [floor_magnitude]
  by_cases he : 0 ≤ e
  · simp [toInt, he]
  · by_cases hc : digitCount c < (-e).toNat
    · simp [toInt, he, hc, div_tenTo_of_digitCount hc]
    · simp [toInt, he, hc]

def Rounding.apply : Rounding → ℚ → ℤ
  | .down => Int.floor
  | .halfEven => Allowance.halfEven

theorem Rounding.apply_natCast (rounding : Rounding) (n : ℕ) : rounding.apply n = n := by
  cases rounding
  · exact Int.floor_natCast n
  · exact_mod_cast halfEven_intCast n

theorem Rounding.shift_eq (rounding : Rounding) (c places : ℕ) :
    (rounding.shift c places : ℤ) = rounding.apply (c / tenTo places) := by
  cases rounding with
  | down =>
    have hdiv : Rounding.down.shift c places = c / tenTo places := by
      unfold Rounding.shift
      split
      · rename_i h
        exact (div_tenTo_of_digitCount h).symm
      · rfl
    rw [hdiv]
    exact (Rat.floor_natCast_div_natCast _ _).symm
  | halfEven =>
    change (dropDigits c places : ℤ) = _
    rw [dropDigits_eq, roundHalfEven_eq _ (tenTo_pos _), Rounding.apply]

theorem Rounding.le_apply (rounding : Rounding) {n : ℤ} {x : ℚ} (h : (n : ℚ) ≤ x) :
    n ≤ rounding.apply x := by
  cases rounding with
  | down => exact Int.le_floor.mpr h
  | halfEven => exact le_halfEven h

/-- The coefficient that an alignment gives is the magnitude in units of the exponent, rounded. -/
theorem aligned_eq (rounding : Rounding) (c : ℕ) (e exponent : ℤ) :
    ((if exponent ≤ e then c * tenTo (e - exponent).toNat
      else rounding.shift c (exponent - e).toNat : ℕ) : ℤ) =
        rounding.apply (magnitude c e / 10 ^ exponent) := by
  have hpos := (ten_zpow_pos exponent).ne'
  have hunits : magnitude c e / 10 ^ exponent = magnitude c (e - exponent) := by
    rw [magnitude, magnitude, zpow_sub₀ (by norm_num), mul_div_assoc]
  rw [hunits]
  split
  · rename_i hle
    rw [magnitude_of_nonneg (by omega), rounding.apply_natCast]
  · rename_i hlt
    rw [magnitude_of_neg (by omega), neg_sub, rounding.shift_eq]

theorem align_eq_ok (h : align (.finite negative c e) exponent rounding = .ok b) :
    ∃ n : ℕ, b = .finite negative n exponent ∧
      (n : ℤ) = rounding.apply (magnitude c e / 10 ^ exponent) := by
  have haligned := aligned_eq rounding c e exponent
  unfold align at h
  dsimp only at h
  generalize (if exponent ≤ e then c * tenTo (e - exponent).toNat
    else rounding.shift c (exponent - e).toNat) = aligned at h haligned
  split at h
  · cases h
  split at h
  · rename_i hc
    obtain rfl := Except.ok.inj h
    refine ⟨0, rfl, ?_⟩
    rw [hc, magnitude_zero, zero_div]
    exact (rounding.apply_natCast 0).symm
  split at h
  · cases h
  split at h
  · cases h
  obtain rfl := Except.ok.inj h
  exact ⟨aligned, rfl, haligned⟩

theorem align_of_lt (negative : Bool) (hmin : minExponent ≤ exponent)
    (hmax : exponent ≤ maxExponent)
    (h : rounding.apply (magnitude c e / 10 ^ exponent) < tenTo precision) :
    ∃ n : ℕ, align (.finite negative c e) exponent rounding = .ok (.finite negative n exponent) ∧
      (n : ℤ) = rounding.apply (magnitude c e / 10 ^ exponent) := by
  obtain ⟨b, hb⟩ : ∃ b, align (.finite negative c e) exponent rounding = .ok b := by
    have haligned := aligned_eq rounding c e exponent
    unfold align
    dsimp only
    generalize (if exponent ≤ e then c * tenTo (e - exponent).toNat
      else rounding.shift c (exponent - e).toNat) = aligned at haligned
    have hrange :
        ¬ (decide (maxExponent < exponent) || decide (exponent < minExponent)) = true := by
      simp [hmin, hmax]
    rw [if_neg hrange]
    rcases eq_or_ne c 0 with hc | hc
    · exact ⟨_, if_pos hc⟩
    have hshort : ¬ (precision : ℤ) < digitCount c + (e - exponent) := by
      intro hlong
      have hlarge : ((tenTo precision : ℤ) : ℚ) ≤ magnitude c e / 10 ^ exponent := by
        rw [le_div_iff₀ (ten_zpow_pos exponent), Int.cast_natCast, cast_tenTo, ← ten_zpow_add]
        exact (ten_zpow_le.mpr (by omega)).trans (le_magnitude hc)
      exact absurd (rounding.le_apply hlarge) (not_le.mpr h)
    have hfits : ¬ precision < digitCount aligned := by
      rw [← haligned] at h
      exact Nat.not_lt.mpr (digitCount_le (by decide) (by exact_mod_cast h))
    exact ⟨_, by rw [if_neg hc, if_neg hshort, if_neg hfits]⟩
  obtain ⟨n, rfl, hn⟩ := align_eq_ok hb
  exact ⟨n, hb, hn⟩

end Allowance.Decimal
