import Allowance.Proofs.Ether

/-! # Dollars to wei and back

The wei for an amount of dollars are worth a little less or more than the amount: the quotient is
rounded, what is behind the last wei is dropped, and the product is rounded. Up to 10²⁴ dollars, and
where a wei is worth no more than a tenth of a cent, all this together is less than half a cent. So
the amount is found again when the worth of its wei is rounded to cents.
-/

namespace Allowance.Ether

open Decimal

variable {x p : ℚ} {cents : ℕ} {u q : Decimal} {usd price : Json}

def weiFor (x p : ℚ) : ℤ := ⌊nearest (x / p) * 10 ^ 18⌋

section Worth

theorem not_tiny (h : 10 ^ (-17 : ℤ) ≤ x) : 10 ^ (minExponent + precision) ≤ x :=
  (ten_zpow_le.mpr (by decide)).trans h

/-- Rounding an amount up to 10²⁴ dollars changes it by less than a tenth of a cent. -/
theorem rounding_lt (h : x ≤ 10 ^ 24 + 1) : x * (10 ^ (1 - precision : ℤ) / 2) < 1 / 1000 := by
  have hunit : (10 : ℚ) ^ (1 - precision : ℤ) = 1 / 10 ^ 27 := by
    norm_num [precision]
  rw [hunit]
  linarith

theorem abs_quotient_sub_lt (hlow : 1 / 100 ≤ x) (hhigh : x ≤ 10 ^ 24) (hp : 0 < p)
    (hprice : p ≤ 10 ^ 15) : |nearest (x / p) * p - x| < 1 / 1000 := by
  have hquotient : 10 ^ (-17 : ℤ) ≤ x / p := by
    rw [le_div_iff₀ hp]
    calc (10 : ℚ) ^ (-17 : ℤ) * p ≤ 10 ^ (-17 : ℤ) * 10 ^ 15 :=
          mul_le_mul_of_nonneg_left hprice (ten_zpow_pos _).le
      _ = 1 / 100 := by norm_num
      _ ≤ x := hlow
  have hworth : x / p * p = x := div_mul_cancel₀ x hp.ne'
  calc |nearest (x / p) * p - x| = |nearest (x / p) - x / p| * p := by
        rw [← abs_of_pos hp, ← abs_mul, abs_of_pos hp, sub_mul, hworth]
    _ ≤ x / p * (10 ^ (1 - precision : ℤ) / 2) * p :=
        mul_le_mul_of_nonneg_right (abs_nearest_sub_le (not_tiny hquotient)) hp.le
    _ = x * (10 ^ (1 - precision : ℤ) / 2) := by rw [mul_right_comm, hworth]
    _ < 1 / 1000 := rounding_lt (by linarith)

theorem abs_wei_sub_le (hp : 0 < p) (hprice : p ≤ 10 ^ 15) :
    |weiFor x p / 10 ^ 18 * p - nearest (x / p) * p| ≤ 1 / 1000 := by
  have hfloor := Int.floor_le (nearest (x / p) * 10 ^ 18)
  have hnext := Int.lt_floor_add_one (nearest (x / p) * 10 ^ 18)
  have hdropped : |(weiFor x p : ℚ) / 10 ^ 18 - nearest (x / p)| ≤ 1 / 10 ^ 18 := by
    unfold weiFor
    rw [abs_le]
    constructor <;> linarith
  rw [← sub_mul, abs_mul, abs_of_pos hp]
  calc _ ≤ 1 / 10 ^ 18 * (10 : ℚ) ^ 15 :=
        mul_le_mul hdropped hprice hp.le (by norm_num)
    _ = 1 / 1000 := by norm_num

/-- The wei for an amount are worth the amount, but for less than half a cent. -/
theorem abs_worth_sub_lt (hx : x = 0 ∨ 1 / 100 ≤ x) (hhigh : x ≤ 10 ^ 24) (hp : 0 < p)
    (hprice : p ≤ 10 ^ 15) : |nearest (weiFor x p / 10 ^ 18 * p) - x| < 1 / 200 := by
  rcases hx with rfl | hlow
  · norm_num [weiFor, nearest_of_zero]
  obtain ⟨hquotient, hquotient'⟩ := abs_lt.mp (abs_quotient_sub_lt hlow hhigh hp hprice)
  obtain ⟨hdropped, hdropped'⟩ := abs_le.mp (abs_wei_sub_le (x := x) hp hprice)
  generalize (weiFor x p / 10 ^ 18 * p : ℚ) = worth at hdropped hdropped' ⊢
  have hworth : (10 : ℚ) ^ (-17 : ℤ) ≤ worth := by
    have : (1 / 200 : ℚ) ≤ worth := by linarith
    exact le_trans (by norm_num) this
  obtain ⟨hproduct, hproduct'⟩ := abs_le.mp (abs_nearest_sub_le (not_tiny hworth))
  have herror : worth * (10 ^ (1 - precision : ℤ) / 2) < 1 / 1000 := rounding_lt (by linarith)
  rw [abs_lt]
  constructor <;> linarith

end Worth

section Conversions

theorem quotient_le (hx : 0 ≤ x) (hhigh : x ≤ 10 ^ 24) (hprice : 10 ^ (-300 : ℤ) ≤ p) :
    nearest (x / p) ≤ 10 ^ (324 : ℤ) := by
  have hp : 0 < p := (ten_zpow_pos _).trans_le hprice
  rcases hx.eq_or_lt with rfl | hpos
  · rw [zero_div, nearest_of_zero]
    exact (ten_zpow_pos _).le
  have hfew : FewDigits (10 ^ (324 : ℤ)) :=
    ⟨1, 324, by decide, by decide, by rw [Nat.cast_one, one_mul]⟩
  refine nearest_le hfew (div_pos hpos hp) ((div_le_iff₀ hp).mpr ?_)
  calc x ≤ 10 ^ (324 : ℤ) * 10 ^ (-300 : ℤ) := by
        rw [← ten_zpow_add]
        exact_mod_cast hhigh
    _ ≤ 10 ^ (324 : ℤ) * p := mul_le_mul_of_nonneg_left hprice (ten_zpow_pos _).le

theorem not_tooLarge_of_le_zpow {y : ℚ} (h : y ≤ 10 ^ (342 : ℤ)) : ¬ TooLarge y :=
  not_le.mpr (h.trans_lt (ten_zpow_lt.mpr (by decide)))

theorem usdToWei_eq_weiFor (husd : decimalOf usd = .ok u) (hprice : decimalOf price = .ok q)
    (hu : u.value? = some x) (hx : 0 ≤ x) (hhigh : x ≤ 10 ^ 24) (hq : q.value? = some p)
    (hp : 10 ^ (-300 : ℤ) ≤ p) : usdToWei usd price = .ok (weiFor x p) := by
  refine (usdToWei_truncated husd hprice hu hx hq ((ten_zpow_pos _).trans_le hp)).2 ?_
  refine not_tooLarge_of_le_zpow ?_
  calc nearest (x / p) * 10 ^ 18 ≤ 10 ^ (324 : ℤ) * 10 ^ (18 : ℤ) :=
        mul_le_mul_of_nonneg_right (quotient_le hx hhigh hp) (by norm_num)
    _ = 10 ^ (342 : ℤ) := (ten_zpow_add 324 18).symm

theorem weiFor_nonneg (hx : 0 ≤ x) (hp : 0 < p) : 0 ≤ weiFor x p :=
  Int.floor_nonneg.mpr (mul_nonneg (fewDigits_nearest (div_nonneg hx hp.le)).nonneg (by norm_num))

theorem fewDigits_weiFor (hx : 0 ≤ x) (hp : 0 < p) : FewDigits (weiFor x p / 10 ^ 18) :=
  (fewDigits_nearest (div_nonneg hx hp.le)).floor (by decide)

theorem weiFor_le (hx : 0 ≤ x) (hhigh : x ≤ 10 ^ 24) (hp : 10 ^ (-300 : ℤ) ≤ p) :
    (weiFor x p / 10 ^ 18 : ℚ) ≤ 10 ^ (342 : ℤ) := by
  refine div_le_of_le_mul₀ (by norm_num) (ten_zpow_pos _).le ?_
  refine (Int.floor_le _).trans (mul_le_mul_of_nonneg_right ?_ (by norm_num))
  exact (quotient_le hx hhigh hp).trans (ten_zpow_le.mpr (by decide))

/-- Wei whose worth is within half a cent of a number of cents are converted to these. -/
theorem weiToCents_of_near {wei : ℤ} (hwei : 0 ≤ wei) (hfew : FewDigits (wei / 10 ^ 18))
    (hsmall : ¬ TooLarge (wei / 10 ^ 18)) (hprice : decimalOf price = .ok q)
    (hq : q.value? = some p) (hp : 0 < p) (hcents : cents < tenTo 26)
    (hnear : |nearest (wei / 10 ^ 18 * p) - cents / 100| < 1 / 200) :
    weiToCents wei price = .ok (.finite false cents centExponent) := by
  obtain ⟨n, rfl⟩ := Int.eq_ofNat_of_zero_le hwei
  obtain ⟨d, f, rfl, rfl, -⟩ := finite_of_pos hq hp
  rw [Int.cast_natCast] at hfew hsmall hnear
  obtain ⟨c, e, hether, hmagnitude⟩ := div_weiPerEther hfew hsmall
  rw [← hmagnitude] at hnear
  obtain ⟨hlow, hhigh⟩ := abs_lt.mp hnear
  have hsum : nearest (magnitude c e * magnitude d f) ≤ tenTo precision := by
    have hcents' : (cents : ℚ) ≤ tenTo 26 := Nat.cast_le.mpr hcents.le
    have hbound : (tenTo 26 : ℚ) + 1 ≤ tenTo precision := by
      rw [cast_tenTo, cast_tenTo]
      norm_num [precision]
    linarith
  obtain ⟨c', e', hdollars, hworth, -, -⟩ :=
    (rounded_mul (c := c) (e := e) (d := d) (f := f) false false).2 (not_tooLarge_of_le hsum)
  rw [← hworth] at hlow hhigh
  have hround : Rounding.halfEven.apply (magnitude c' e' / 10 ^ centExponent) = cents := by
    have hcent : (10 : ℚ) ^ centExponent = 1 / 100 := by norm_num [centExponent]
    refine halfEven_of_near ?_
    rw [hcent, div_div_eq_mul_div, div_one, Int.cast_natCast, abs_lt]
    constructor <;> linarith
  have hlt : (cents : ℤ) < tenTo precision :=
    Nat.cast_lt.mpr (hcents.trans (tenTo_lt_tenTo.mpr (by decide)))
  obtain ⟨k, halign, hk⟩ := align_of_lt false (by decide) (by decide) (hround.trans_lt hlt)
  obtain rfl : k = cents := by exact_mod_cast hk.trans hround
  unfold weiToCents
  generalize weiPerEther = unit at hether
  rw [hether, Checked.ok_bind, hprice, Checked.ok_bind, hdollars, Checked.ok_bind]
  exact halign

end Conversions

/-- Dollars in whole cents, below 10²⁴ of them, are the same to the cent after they have been
converted to wei and back, at all prices from 10⁻³⁰⁰ to 10¹⁵ dollars. -/
theorem weiToUsd_usdToWei (husd : decimalOf usd = .ok u) (hu : u.value? = some (cents / 100 : ℚ))
    (hcents : cents < tenTo 26) (hprice : decimalOf price = .ok q) (hq : q.value? = some p)
    (hlow : 10 ^ (-300 : ℤ) ≤ p) (hhigh : p ≤ 10 ^ 15) :
    ∃ wei back, usdToWei usd price = .ok wei ∧ weiToCents wei price = .ok back ∧
      back.value? = u.value? ∧ weiToUsd (.int wei) price = .ok back.toDouble := by
  have hp : 0 < p := (ten_zpow_pos _).trans_le hlow
  have hnonneg : (0 : ℚ) ≤ cents / 100 := by positivity
  have hle : (cents / 100 : ℚ) ≤ 10 ^ 24 := by
    have : (cents : ℚ) ≤ tenTo 26 := Nat.cast_le.mpr hcents.le
    rw [cast_tenTo] at this
    rw [div_le_iff₀ (by norm_num)]
    exact this.trans_eq (by norm_num)
  have hcent : (cents / 100 : ℚ) = 0 ∨ (1 / 100 : ℚ) ≤ cents / 100 := by
    rcases Nat.eq_zero_or_pos cents with rfl | hpos
    · left
      norm_num
    · right
      have : (1 : ℚ) ≤ cents := Nat.one_le_cast.mpr hpos
      linarith
  have hback := weiToCents_of_near (weiFor_nonneg hnonneg hp) (fewDigits_weiFor hnonneg hp)
    (not_tooLarge_of_le_zpow (weiFor_le hnonneg hle hlow)) hprice hq hp hcents
    (abs_worth_sub_lt hcent hle hp hhigh)
  refine ⟨_, _, usdToWei_eq_weiFor husd hprice hu hnonneg hle hq hlow, hback, ?_, ?_⟩
  · rw [hu, value?, magnitude]
    norm_num [centExponent, div_eq_mul_inv]
  · have hwei : (Json.int (weiFor (cents / 100) p)).toInt = .ok (weiFor (cents / 100) p) := rfl
    rw [weiToUsd, hwei, Checked.ok_bind, hback]
    rfl

/-- Twelve dollars and thirty-four cents, at 1999.37 dollars for an ether. -/
theorem weiToUsd_usdToWei_dollars :
    decimalOf (.string "12.34") = .ok (.finite false 1234 (-2)) ∧ 1234 < tenTo 26 ∧
      decimalOf (.string "1999.37") = .ok (.finite false 199937 (-2)) ∧
      (10 : ℚ) ^ (-300 : ℤ) ≤ 199937 / 100 ∧ (199937 / 100 : ℚ) ≤ 10 ^ 15 ∧
      usdToWei (.string "12.34") (.string "1999.37") = .ok 6171944162411159 ∧
      ∃ back, weiToCents 6171944162411159 (.string "1999.37") = .ok back ∧
        back.value? = some (1234 / 100) := by
  have husd : decimalOf (.string "12.34") = .ok (.finite false 1234 (-2)) :=
    Checked.gives_iff.mp (by decide +kernel)
  have hprice : decimalOf (.string "1999.37") = .ok (.finite false 199937 (-2)) :=
    Checked.gives_iff.mp (by decide +kernel)
  have hwei : usdToWei (.string "12.34") (.string "1999.37") = .ok 6171944162411159 :=
    Checked.gives_iff.mp (by decide +kernel)
  have hu : (finite false 1234 (-2)).value? = some ((1234 : ℕ) / 100 : ℚ) := by
    norm_num [value?, magnitude]
  have hq : (finite false 199937 (-2)).value? = some (199937 / 100 : ℚ) := by
    norm_num [value?, magnitude]
  have hlow : (10 : ℚ) ^ (-300 : ℤ) ≤ 199937 / 100 :=
    (ten_zpow_le.mpr (show (-300 : ℤ) ≤ 0 by decide)).trans (by norm_num)
  have hhigh : (199937 / 100 : ℚ) ≤ 10 ^ 15 := by norm_num
  obtain ⟨wei, back, hwei', hback, hvalue, -⟩ :=
    weiToUsd_usdToWei husd hu (by decide) hprice hq hlow hhigh
  obtain rfl : (6171944162411159 : ℤ) = wei := Except.ok.inj (hwei.symm.trans hwei')
  exact ⟨husd, by decide, hprice, hlow, hhigh, hwei, back, hback, by rw [hvalue, hu]; norm_num⟩

end Allowance.Ether
