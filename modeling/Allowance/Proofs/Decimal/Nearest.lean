import Allowance.Decimal.Basic
import Allowance.Proofs.Number.Rounding
import Mathlib.Data.Int.Log

/-! # The nearest decimal

Results of decimal arithmetic lie on a grid: the last of their digits has an exponent that depends
on the size of the number and is never below the least one. An exact result is rounded to the
nearest point of its grid. Numbers with few enough digits are on every grid near them, so rounding
does not cross them and leaves them as they are.
-/

namespace Allowance.Decimal

variable {x y : ℚ} {k : ℤ}

theorem ten_zpow_pos (k : ℤ) : (0 : ℚ) < 10 ^ k := zpow_pos (by norm_num) k

theorem ten_zpow_add (j k : ℤ) : (10 : ℚ) ^ (j + k) = 10 ^ j * 10 ^ k := zpow_add₀ (by norm_num) j k

theorem ten_zpow_le {j k : ℤ} : (10 : ℚ) ^ j ≤ 10 ^ k ↔ j ≤ k :=
  zpow_le_zpow_iff_right₀ (by norm_num)

theorem ten_zpow_lt {j k : ℤ} : (10 : ℚ) ^ j < 10 ^ k ↔ j < k :=
  zpow_lt_zpow_iff_right₀ (by norm_num)

def gridExponent (x : ℚ) : ℤ := max (Int.log 10 x + 1 - precision) minExponent

/-- The point of its grid that a number is nearest to; a half goes to the even neighbour. -/
def nearest (x : ℚ) : ℚ := halfEven (x / 10 ^ gridExponent x) * 10 ^ gridExponent x

/-- A number with no more digits than are kept, and no smaller exponent. -/
def FewDigits (x : ℚ) : Prop :=
  ∃ (m : ℕ) (k : ℤ), m < tenTo precision ∧ minExponent ≤ k ∧ x = m * 10 ^ k

theorem FewDigits.nonneg (hy : FewDigits y) : 0 ≤ y := by
  obtain ⟨m, k, -, -, rfl⟩ := hy
  exact mul_nonneg (Nat.cast_nonneg _) (ten_zpow_pos k).le

theorem gridExponent_eq (hlow : 10 ^ k ≤ x) (hhigh : x < 10 ^ (k + 1)) :
    gridExponent x = max (k + 1 - precision) minExponent := by
  have hx : 0 < x := (ten_zpow_pos k).trans_le hlow
  have hlog : Int.log 10 x = k := by
    refine le_antisymm ?_ ((Int.zpow_le_iff_le_log (by norm_num) hx).mp (by exact_mod_cast hlow))
    have := (Int.lt_zpow_iff_log_lt (b := 10) (by norm_num) hx).mp (by exact_mod_cast hhigh)
    omega
  rw [gridExponent, hlog]

theorem lt_of_grid (x : ℚ) : x < 10 ^ (gridExponent x + precision) := by
  have hlt : x < ((10 : ℕ) : ℚ) ^ (Int.log 10 x + 1) := Int.lt_zpow_succ_log_self (by norm_num) x
  have hle : Int.log 10 x + 1 ≤ gridExponent x + precision := by
    have := le_max_left (Int.log 10 x + 1 - precision) minExponent
    unfold gridExponent
    omega
  push_cast at hlt
  exact hlt.trans_le (ten_zpow_le.mpr hle)

theorem le_of_grid (hx : 0 < x) (h : minExponent < gridExponent x) :
    10 ^ (gridExponent x + precision - 1) ≤ x := by
  have hgrid : gridExponent x + precision - 1 = Int.log 10 x := by
    unfold gridExponent at h ⊢
    omega
  rw [hgrid]
  exact_mod_cast Int.zpow_log_le_self (b := 10) (by norm_num) hx

section Crossing

/-- A number of few digits is on the grid of another one, or below a point of it that the other has
reached. -/
theorem FewDigits.on_grid (hy : FewDigits y) (hx : 0 < x) :
    (∃ n : ℤ, y = n * 10 ^ gridExponent x) ∨
      ∃ n : ℤ, y < n * 10 ^ gridExponent x ∧ n * 10 ^ gridExponent x ≤ x := by
  obtain ⟨m, k, hm, hk, rfl⟩ := hy
  rcases le_or_gt (gridExponent x) k with hle | hlt
  · refine Or.inl ⟨m * 10 ^ (k - gridExponent x).toNat, ?_⟩
    have hpow : (10 : ℚ) ^ k = 10 ^ (k - gridExponent x).toNat * 10 ^ gridExponent x := by
      rw [← zpow_natCast, ← ten_zpow_add]
      congr 1
      omega
    rw [hpow]
    push_cast
    ring
  · have hpoint : ((10 ^ (precision - 1) : ℤ) : ℚ) * 10 ^ gridExponent x =
        10 ^ (gridExponent x + precision - 1) := by
      push_cast
      rw [← zpow_natCast, ← ten_zpow_add]
      congr 1
      have : 1 ≤ precision := by decide
      omega
    refine Or.inr ⟨10 ^ (precision - 1), ?_, hpoint ▸ le_of_grid hx (by omega)⟩
    have hm' : (m : ℚ) < 10 ^ (precision : ℤ) := by
      rw [zpow_natCast]
      exact_mod_cast hm
    calc (m : ℚ) * 10 ^ k < 10 ^ (precision : ℤ) * 10 ^ k :=
          mul_lt_mul_of_pos_right hm' (ten_zpow_pos k)
      _ = 10 ^ (precision + k) := (ten_zpow_add _ _).symm
      _ ≤ 10 ^ (gridExponent x + precision - 1) := ten_zpow_le.mpr (by omega)
      _ = _ := hpoint.symm

theorem nearest_of_zero : nearest 0 = 0 := by
  have hzero : halfEven 0 = 0 := by exact_mod_cast halfEven_intCast 0
  simp [nearest, hzero]

theorem le_nearest (hy : FewDigits y) (hx : 0 < x) (h : y ≤ x) : y ≤ nearest x := by
  have hpos := ten_zpow_pos (gridExponent x)
  have hround {n : ℤ} (hn : n * 10 ^ gridExponent x ≤ x) :
      n * 10 ^ gridExponent x ≤ nearest x := by
    refine mul_le_mul_of_nonneg_right ?_ hpos.le
    exact_mod_cast le_halfEven ((le_div_iff₀ hpos).mpr hn)
  rcases hy.on_grid hx with ⟨n, rfl⟩ | ⟨n, hlt, hle⟩
  · exact hround h
  · exact hlt.le.trans (hround hle)

theorem nearest_le (hy : FewDigits y) (hx : 0 < x) (h : x ≤ y) : nearest x ≤ y := by
  have hpos := ten_zpow_pos (gridExponent x)
  rcases hy.on_grid hx with ⟨n, rfl⟩ | ⟨n, hlt, hle⟩
  · refine mul_le_mul_of_nonneg_right ?_ hpos.le
    exact_mod_cast halfEven_le ((div_le_iff₀ hpos).mpr h)
  · exact absurd (h.trans_lt hlt) (not_lt.mpr hle)

theorem nearest_eq (hy : FewDigits y) (hpos : 0 ≤ y) : nearest y = y := by
  rcases hpos.eq_or_lt with rfl | hpos
  · exact nearest_of_zero
  · exact (nearest_le hy hpos le_rfl).antisymm (le_nearest hy hpos le_rfl)

theorem fewDigits_of_le {n : ℕ} (h : n ≤ tenTo precision) (hk : minExponent ≤ k) :
    FewDigits (n * 10 ^ k) := by
  rcases h.lt_or_eq with h | rfl
  · exact ⟨n, k, h, hk, rfl⟩
  · refine ⟨tenTo (precision - 1), k + 1, by decide, by omega, ?_⟩
    have hcarry : ((tenTo precision : ℕ) : ℚ) = tenTo (precision - 1) * 10 := by
      exact_mod_cast show tenTo precision = tenTo (precision - 1) * 10 by decide
    rw [hcarry, ten_zpow_add, zpow_one]
    ring

theorem fewDigits_natCast {n : ℕ} (h : n ≤ tenTo precision) : FewDigits n := by
  simpa using fewDigits_of_le (k := 0) h (by decide)

theorem fewDigits_nearest (hx : 0 ≤ x) : FewDigits (nearest x) := by
  have hpos := ten_zpow_pos (gridExponent x)
  have hlow : 0 ≤ halfEven (x / 10 ^ gridExponent x) :=
    le_halfEven (by exact_mod_cast div_nonneg hx hpos.le)
  have hhigh : halfEven (x / 10 ^ gridExponent x) ≤ tenTo precision := by
    refine halfEven_le ((div_le_iff₀ hpos).mpr ((lt_of_grid x).le.trans_eq ?_))
    rw [add_comm, ten_zpow_add, Int.cast_natCast, zpow_natCast]
    exact_mod_cast rfl
  obtain ⟨n, hn⟩ := Int.eq_ofNat_of_zero_le hlow
  rw [hn] at hhigh
  rw [nearest, hn]
  exact fewDigits_of_le (by exact_mod_cast hhigh) (le_max_right _ _)

theorem FewDigits.floor {places : ℕ} (hy : FewDigits y) (hplaces : minExponent ≤ -places) :
    FewDigits (⌊y * 10 ^ places⌋ / 10 ^ places) := by
  obtain ⟨m, k, hm, hk, rfl⟩ := hy
  have hscale : (m * 10 ^ k * 10 ^ places : ℚ) = m * 10 ^ (k + places) := by
    rw [ten_zpow_add, zpow_natCast, mul_assoc]
  rcases le_or_gt 0 (k + places) with hwhole | hfraction
  · -- Nothing is behind the place.
    obtain ⟨n, hn⟩ := Int.eq_ofNat_of_zero_le hwhole
    have hfloor : (⌊(m * 10 ^ k * 10 ^ places : ℚ)⌋ : ℚ) = m * 10 ^ k * 10 ^ places := by
      rw [hscale, hn, zpow_natCast]
      exact_mod_cast Int.floor_natCast (R := ℚ) (m * 10 ^ n)
    rw [hfloor, mul_div_cancel_right₀ _ (pow_ne_zero _ (by norm_num))]
    exact ⟨m, k, hm, hk, rfl⟩
  · have hnonneg : (0 : ℚ) ≤ m * 10 ^ k * 10 ^ places :=
      mul_nonneg (mul_nonneg (Nat.cast_nonneg _) (ten_zpow_pos k).le) (pow_nonneg (by norm_num) _)
    obtain ⟨n, hn⟩ := Int.eq_ofNat_of_zero_le (Int.floor_nonneg.mpr hnonneg)
    have hle : (n : ℚ) ≤ m := by
      calc (n : ℚ) = ⌊(m * 10 ^ k * 10 ^ places : ℚ)⌋ := by rw [hn]; rfl
        _ ≤ m * 10 ^ k * 10 ^ places := Int.floor_le _
        _ = m * 10 ^ (k + places) := hscale
        _ ≤ m * 1 := mul_le_mul_of_nonneg_left
            (zpow_le_one_of_nonpos₀ (by norm_num) hfraction.le) (Nat.cast_nonneg _)
        _ = m := mul_one _
    refine ⟨n, -places, (Nat.cast_le.mp hle).trans_lt hm, hplaces, ?_⟩
    rw [hn, zpow_neg, zpow_natCast, div_eq_mul_inv]
    rfl

/-- Rounding changes the whole part of a number without too many digits before its point only where
it reaches the next whole number. -/
theorem floor_nearest (hx : 0 ≤ x) (h : x < tenTo precision) :
    ⌊nearest x⌋ = ⌊x⌋ ∨ nearest x = ⌊x⌋ + 1 := by
  rcases hx.eq_or_lt with rfl | hpos
  · rw [nearest_of_zero]
    exact Or.inl rfl
  have hfloor : ((⌊x⌋.toNat : ℕ) : ℚ) = ⌊x⌋ := by
    exact_mod_cast Int.toNat_of_nonneg (Int.floor_nonneg.mpr hx)
  have hlt : ⌊x⌋.toNat < tenTo precision := by
    have : (⌊x⌋.toNat : ℚ) < tenTo precision := hfloor ▸ (Int.floor_le x).trans_lt h
    exact_mod_cast this
  have hlow : (⌊x⌋ : ℚ) ≤ nearest x :=
    hfloor ▸ le_nearest (fewDigits_natCast hlt.le) hpos (hfloor ▸ Int.floor_le x)
  have hhigh : nearest x ≤ ⌊x⌋ + 1 := by
    have := nearest_le (fewDigits_natCast (Nat.succ_le_of_lt hlt)) hpos
    push_cast at this
    rw [hfloor] at this
    exact this (Int.lt_floor_add_one x).le
  rcases hhigh.lt_or_eq with hlt | heq
  · exact Or.inl (Int.floor_eq_iff.mpr ⟨hlow, hlt⟩)
  · exact Or.inr heq

end Crossing

section Error

theorem sub_le_nearest (x : ℚ) : x - 10 ^ gridExponent x / 2 ≤ nearest x := by
  have hpos := ten_zpow_pos (gridExponent x)
  have hhalf := le_two_mul_halfEven (x / 10 ^ gridExponent x)
  have hx : x / 10 ^ gridExponent x * 10 ^ gridExponent x = x := div_mul_cancel₀ x hpos.ne'
  unfold nearest
  nlinarith

theorem nearest_le_add (x : ℚ) : nearest x ≤ x + 10 ^ gridExponent x / 2 := by
  have hpos := ten_zpow_pos (gridExponent x)
  have hhalf := two_mul_halfEven_le (x / 10 ^ gridExponent x)
  have hx : x / 10 ^ gridExponent x * 10 ^ gridExponent x = x := div_mul_cancel₀ x hpos.ne'
  unfold nearest
  nlinarith

/-- The grid of a number that is not tiny is as fine as its digits are many. -/
theorem grid_le (h : 10 ^ (minExponent + precision) ≤ x) :
    (10 : ℚ) ^ gridExponent x ≤ x * 10 ^ (1 - precision : ℤ) := by
  have hx : 0 < x := (ten_zpow_pos _).trans_le h
  have hgrid : minExponent < gridExponent x := by
    have := ten_zpow_lt.mp (h.trans_lt (lt_of_grid x))
    omega
  calc (10 : ℚ) ^ gridExponent x
      = 10 ^ (gridExponent x + precision - 1) * 10 ^ (1 - precision : ℤ) := by
        rw [← ten_zpow_add]
        congr 1
        omega
    _ ≤ _ := mul_le_mul_of_nonneg_right (le_of_grid hx hgrid) (ten_zpow_pos _).le

/-- A number that is not tiny loses less than a half in the last of its digits. -/
theorem mul_le_nearest (h : 10 ^ (minExponent + precision) ≤ x) :
    x * (1 - 10 ^ (1 - precision : ℤ) / 2) ≤ nearest x := by
  have hgrid := grid_le h
  calc x * (1 - 10 ^ (1 - precision : ℤ) / 2) = x - x * 10 ^ (1 - precision : ℤ) / 2 := by ring
    _ ≤ x - 10 ^ gridExponent x / 2 := by linarith
    _ ≤ nearest x := sub_le_nearest x

theorem abs_nearest_sub_le (h : 10 ^ (minExponent + precision) ≤ x) :
    |nearest x - x| ≤ x * (10 ^ (1 - precision : ℤ) / 2) := by
  have hgrid := grid_le h
  have hlow := sub_le_nearest x
  have hhigh := nearest_le_add x
  rw [abs_le]
  constructor <;> linarith

end Error

end Allowance.Decimal
