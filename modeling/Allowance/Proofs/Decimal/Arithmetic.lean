import Allowance.Decimal.Arithmetic
import Allowance.Proofs.Decimal.Nearest
import Allowance.Proofs.Text.Numeral
import Mathlib.Data.Nat.Cast.Field
import Mathlib.Tactic.FieldSimp
import Mathlib.Tactic.LinearCombination

/-! # Decimal arithmetic rounds once

The product and the quotient of two finite decimals are the exact ones, rounded to the nearest, or a
fault if that is too large. Of a quotient that does not end only some digits are computed, but the
last of them is chosen so that nothing rounds otherwise than the exact quotient.
-/

namespace Allowance

theorem cast_tenTo (n : ℕ) : ((tenTo n : ℕ) : ℚ) = 10 ^ (n : ℤ) := by
  rw [zpow_natCast]
  exact_mod_cast rfl

theorem tenTo_le_tenTo {m n : ℕ} : tenTo m ≤ tenTo n ↔ m ≤ n :=
  Nat.pow_le_pow_iff_right (by decide)

theorem tenTo_lt_tenTo {m n : ℕ} : tenTo m < tenTo n ↔ m < n :=
  Nat.pow_lt_pow_iff_right (by decide)

namespace Decimal

def magnitude (coefficient : ℕ) (exponent : ℤ) : ℚ := coefficient * 10 ^ exponent

def value? : Decimal → Option ℚ
  | .finite negative c e => some (if negative then -magnitude c e else magnitude c e)
  | .infinity _ => none
  | .nan _ => none

def TooLarge (x : ℚ) : Prop := 10 ^ (maxExponent + 1) ≤ x

/-- The result is the decimal nearest to a magnitude, or a fault if that is too large. -/
def Rounded (result : Checked Decimal) (negative : Bool) (x : ℚ) : Prop :=
  (TooLarge (nearest x) → result = misuse .decimalTooLarge) ∧
    (¬ TooLarge (nearest x) → ∃ c e, result = .ok (.finite negative c e) ∧
      magnitude c e = nearest x ∧ c < tenTo precision ∧ minExponent ≤ e)

variable {negative : Bool} {c d n places : ℕ} {e f : ℤ} {x : ℚ}

theorem Rounded.eq_ok {result : Checked Decimal} {b : Decimal} (h : Rounded result negative x)
    (hb : result = .ok b) : ∃ c e, b = .finite negative c e ∧ magnitude c e = nearest x := by
  have hsmall : ¬ TooLarge (nearest x) := fun hlarge => by
    rw [h.1 hlarge] at hb
    cases hb
  obtain ⟨c, e, hresult, hmagnitude, -, -⟩ := h.2 hsmall
  exact ⟨c, e, Except.ok.inj (hb.symm.trans hresult), hmagnitude⟩

section DigitCount

theorem digitCount_of_lt (h : n < 10) : digitCount n = 1 := by
  rw [digitCount, Text.digits_of_lt h, List.length_singleton]

theorem digitCount_of_ge (h : 10 ≤ n) : digitCount n = digitCount (n / 10) + 1 := by
  rw [digitCount, Text.digits_of_ge h, List.length_append, List.length_singleton, digitCount]

theorem lt_tenTo_digitCount (n : ℕ) : n < tenTo (digitCount n) := by
  induction n using Text.digits_induction with
  | below n h => rwa [digitCount_of_lt h]
  | step n h ih =>
    rw [digitCount_of_ge h, tenTo_add]
    change n < _ * 10
    omega

theorem tenTo_le_of_digitCount (hn : n ≠ 0) : tenTo (digitCount n - 1) ≤ n := by
  induction n using Text.digits_induction with
  | below n h =>
    rw [digitCount_of_lt h]
    exact Nat.one_le_iff_ne_zero.mpr hn
  | step n h ih =>
    have hcount : digitCount (n / 10) - 1 + 1 = digitCount (n / 10) := by
      by_cases hlt : n / 10 < 10
      · rw [digitCount_of_lt hlt]
      · rw [digitCount_of_ge (Nat.le_of_not_lt hlt), Nat.add_sub_cancel]
    rw [digitCount_of_ge h, Nat.add_sub_cancel, ← hcount, tenTo_add]
    have := ih (by omega)
    change _ * 10 ≤ n
    omega

theorem digitCount_le_iff (hn : n ≠ 0) : digitCount n ≤ places ↔ n < tenTo places := by
  constructor
  · intro h
    exact (lt_tenTo_digitCount n).trans_le (tenTo_le_tenTo.mpr h)
  · intro h
    have := tenTo_lt_tenTo.mp ((tenTo_le_of_digitCount hn).trans_lt h)
    omega

/-- Of numbers below a power of ten zero has a digit, too. -/
theorem digitCount_le (hplaces : 0 < places) (h : n < tenTo places) : digitCount n ≤ places := by
  rcases eq_or_ne n 0 with rfl | hn
  · rwa [digitCount_of_lt (by decide)]
  · exact (digitCount_le_iff hn).mpr h

end DigitCount

section Magnitude

theorem magnitude_pos (hc : c ≠ 0) : 0 < magnitude c e :=
  mul_pos (Nat.cast_pos.mpr (Nat.pos_of_ne_zero hc)) (ten_zpow_pos e)

@[simp] theorem magnitude_zero : magnitude 0 e = 0 := by simp [magnitude]

theorem magnitude_mul : magnitude c e * magnitude d f = magnitude (c * d) (e + f) := by
  unfold magnitude
  rw [ten_zpow_add]
  push_cast
  ring

theorem magnitude_mul_tenTo : magnitude (c * tenTo n) e = magnitude c (e + n) := by
  unfold magnitude
  rw [ten_zpow_add]
  push_cast
  rw [cast_tenTo]
  ring

theorem fewDigits_magnitude (hc : c < tenTo precision) (he : minExponent ≤ e) :
    FewDigits (magnitude c e) := ⟨c, e, hc, he, rfl⟩

theorem magnitude_lt : magnitude c e < 10 ^ (digitCount c + e) := by
  rw [ten_zpow_add, ← cast_tenTo]
  exact mul_lt_mul_of_pos_right (Nat.cast_lt.mpr (lt_tenTo_digitCount c)) (ten_zpow_pos e)

theorem le_magnitude (hc : c ≠ 0) : 10 ^ (digitCount c + e - 1) ≤ magnitude c e := by
  have hcount : 1 ≤ digitCount c := by
    have : ¬ digitCount c ≤ 0 := fun h => hc (by
      have := (digitCount_le_iff hc).mp h
      change c < 1 at this
      omega)
    omega
  have hsplit : (digitCount c + e - 1 : ℤ) = (digitCount c - 1 : ℕ) + e := by omega
  rw [hsplit, ten_zpow_add, ← cast_tenTo]
  exact mul_le_mul_of_nonneg_right (Nat.cast_le.mpr (tenTo_le_of_digitCount hc)) (ten_zpow_pos e).le

theorem gridExponent_magnitude (hc : c ≠ 0) :
    gridExponent (magnitude c e) = max (digitCount c + e - precision) minExponent := by
  have hhigh : magnitude c e < 10 ^ (digitCount c + e - 1 + 1) := by
    rw [sub_add_cancel]
    exact magnitude_lt
  rw [gridExponent_eq (le_magnitude hc) hhigh, sub_add_cancel]

theorem tooLarge_iff : (c != 0 && decide (maxExponent < e + digitCount c - 1)) = true ↔
    TooLarge (magnitude c e) := by
  rcases eq_or_ne c 0 with rfl | hc
  · simpa [TooLarge] using ten_zpow_pos _
  · simp only [bne_iff_ne, ne_eq, hc, not_false_eq_true, Bool.and_eq_true, decide_eq_true_eq,
      true_and]
    constructor
    · intro h
      exact (ten_zpow_le.mpr (by omega)).trans (le_magnitude hc)
    · intro h
      have := ten_zpow_lt.mp (h.trans_lt magnitude_lt)
      omega

end Magnitude

section Round

theorem dropDigits_eq (c n : ℕ) : dropDigits c n = roundHalfEven c (tenTo n) := by
  unfold dropDigits
  split
  case isFalse => rfl
  case isTrue hlt =>
    have hc : c < tenTo (n - 1) :=
      (lt_tenTo_digitCount c).trans_le (tenTo_le_tenTo.mpr (by omega))
    have htenth : tenTo n = tenTo (n - 1) * 10 := by
      have := tenTo_add (n - 1) 1
      rwa [Nat.sub_add_cancel (by omega)] at this
    rw [roundHalfEven, Nat.div_eq_of_lt (by omega), Nat.mod_eq_of_lt (by omega)]
    simp only [htenth]
    rw [if_pos (by simp; omega)]

theorem magnitude_dropDigits (hc : c ≠ 0) :
    magnitude (dropDigits c (surplus c e)) (e + surplus c e) = nearest (magnitude c e) := by
  have hgrid := gridExponent_magnitude (e := e) hc
  have hsurplus : (surplus c e : ℤ) = max (gridExponent (magnitude c e) - e) 0 := by
    unfold surplus
    omega
  rcases le_or_gt (gridExponent (magnitude c e)) e with hle | hlt
  · -- All digits fit.
    have hzero : surplus c e = 0 := by omega
    have hfew : FewDigits (magnitude c e) := by
      refine fewDigits_magnitude ((digitCount_le_iff hc).mp ?_) ?_ <;> omega
    rw [nearest_eq hfew (magnitude_pos hc).le, hzero, dropDigits_eq]
    simp [tenTo, roundHalfEven, Nat.mod_one]
  · have hexponent : e + surplus c e = gridExponent (magnitude c e) := by omega
    have hquotient : magnitude c e / 10 ^ gridExponent (magnitude c e) =
        (c / tenTo (surplus c e) : ℚ) := by
      rw [← hexponent, cast_tenTo, ten_zpow_add, magnitude]
      field_simp
    rw [nearest, hquotient, hexponent, ← roundHalfEven_eq _ (tenTo_pos _), dropDigits_eq, magnitude]
    push_cast
    rfl

theorem dropDigits_le (c : ℕ) (e : ℤ) : dropDigits c (surplus c e) ≤ tenTo precision := by
  rw [dropDigits_eq]
  refine roundHalfEven_le_of_le_mul (tenTo_pos _) ?_
  rw [← tenTo_add]
  refine (lt_tenTo_digitCount c).le.trans (tenTo_le_tenTo.mpr ?_)
  unfold surplus
  omega

/-- What is kept, with the carry of a digit, and the test for a result that is too large. -/
theorem round_eq (negative : Bool) (hc : c ≠ 0) (e : ℤ) : ∃ c' e',
    round negative c e = (if c' != 0 && decide (maxExponent < e' + digitCount c' - 1) then
      misuse .decimalTooLarge else .ok (.finite negative c' e')) ∧
    magnitude c' e' = nearest (magnitude c e) ∧ c' < tenTo precision ∧ minExponent ≤ e' := by
  have hkept := magnitude_dropDigits (e := e) hc
  have hle := dropDigits_le c e
  have he : minExponent ≤ e + surplus c e := by
    unfold surplus
    omega
  unfold round
  rw [if_neg hc]
  dsimp only
  generalize surplus c e = s at *
  generalize dropDigits c s = kept at *
  rcases hle.lt_or_eq with hlt | rfl
  · have hcarried : ¬ precision < digitCount kept :=
      Nat.not_lt.mpr (digitCount_le (by decide) hlt)
    exact ⟨kept, e + s, by simp [hcarried], hkept, hlt, he⟩
  · -- A power of ten has one digit too many.
    have hcarried : precision < digitCount (tenTo precision) := by
      by_contra h
      exact lt_irrefl _ ((digitCount_le_iff (tenTo_pos _).ne').mp (Nat.not_lt.mp h))
    refine ⟨tenTo precision / 10, e + s + 1, by simp [hcarried], ?_, by decide, by omega⟩
    rw [← hkept]
    exact (magnitude_mul_tenTo (n := 1)).symm

theorem rounded_round (negative : Bool) (c : ℕ) (e : ℤ) :
    Rounded (round negative c e) negative (magnitude c e) := by
  rcases eq_or_ne c 0 with rfl | hc
  · have hsmall : ¬ TooLarge 0 := not_le.mpr (ten_zpow_pos _)
    rw [magnitude_zero, Rounded, nearest_of_zero]
    refine ⟨fun h => absurd h hsmall, fun _ => ⟨0, _, rfl, magnitude_zero, tenTo_pos _, ?_⟩⟩
    exact le_max_left _ _
  · obtain ⟨c', e', hround, hmagnitude, hc', he'⟩ := round_eq negative hc e
    have htest := tooLarge_iff (c := c') (e := e')
    rw [hmagnitude] at htest
    rw [Rounded, hround]
    refine ⟨fun h => if_pos (htest.mpr h), fun h => ⟨c', e', if_neg (mt htest.mp h), hmagnitude,
      hc', he'⟩⟩

end Round

theorem rounded_mul (s t : Bool) : Rounded (mul (.finite s c e) (.finite t d f)) (s != t)
    (magnitude c e * magnitude d f) := by
  rw [magnitude_mul]
  exact rounded_round _ _ _

section Quotient

variable {num den j : ℕ}

theorem stickyQuotient_mod (h : num % den ≠ 0) : stickyQuotient num den % 5 ≠ 0 := by
  unfold stickyQuotient
  by_cases hq : num / den % 5 = 0
  · simp [h, hq]
    omega
  · simp [hq]

theorem le_stickyQuotient (num den : ℕ) : num / den ≤ stickyQuotient num den := by
  unfold stickyQuotient
  dsimp only
  split <;> omega

theorem stickyQuotient_le (num den : ℕ) : stickyQuotient num den ≤ num / den + 1 := by
  unfold stickyQuotient
  dsimp only
  split <;> omega

theorem quotient_lt (hden : 0 < den) (h : num % den ≠ 0) : ((num / den : ℕ) : ℚ) < num / den := by
  rw [lt_div_iff₀ (Nat.cast_pos.mpr hden)]
  have hne : num / den * den ≠ num := fun he => h (Nat.mod_eq_zero_of_dvd (Dvd.intro_left _ he))
  exact_mod_cast (Nat.div_mul_le_self num den).lt_of_ne hne

theorem lt_quotient_add_one (hden : 0 < den) : (num / den : ℚ) < (num / den : ℕ) + 1 := by
  rw [div_lt_iff₀ (Nat.cast_pos.mpr hden)]
  have := Nat.lt_div_mul_add hden (a := num)
  rw [← Nat.succ_mul] at this
  exact_mod_cast this

theorem halfEven_of_band {m M : ℕ} {z : ℚ} (hM : 0 < M) (hlow : m * M < z)
    (hhigh : z < (m + 1) * M) : halfEven (z / (2 * M)) = (m + 1) / 2 := by
  have hM' : (0 : ℚ) < M := Nat.cast_pos.mpr hM
  have htwice : 2 * (z / (2 * M)) = z / M := by field_simp
  have := halfEven_of_between (x := z / (2 * M)) (n := m)
    (by rw [htwice, lt_div_iff₀ hM']; exact_mod_cast hlow)
    (by rw [htwice, div_lt_iff₀ hM']; exact_mod_cast hhigh)
  exact_mod_cast this

/-- The last digit of a quotient that does not end is no digit to which two numbers round that the
quotient would not round to. -/
theorem halfEven_sticky (hden : 0 < den) (hrem : num % den ≠ 0) (hj : j ≠ 0) :
    halfEven (stickyQuotient num den / 10 ^ j) = halfEven (num / den / 10 ^ j) := by
  obtain ⟨i, rfl⟩ := Nat.exists_eq_succ_of_ne_zero hj
  have hM : 0 < 5 * 10 ^ i := by positivity
  have hpow : (10 : ℚ) ^ (i + 1) = 2 * (5 * 10 ^ i : ℕ) := by
    push_cast
    ring
  have hden' : (0 : ℚ) < den := Nat.cast_pos.mpr hden
  generalize hm : num / den / (5 * 10 ^ i) = m
  have hlow : m * (5 * 10 ^ i) ≤ num / den := hm ▸ Nat.div_mul_le_self _ _
  have hhigh : num / den + 1 ≤ (m + 1) * (5 * 10 ^ i) := by
    have := Nat.lt_div_mul_add hM (a := num / den)
    rw [hm] at this
    rw [Nat.add_mul, Nat.one_mul]
    omega
  have hsticky := stickyQuotient_mod hrem
  have hne (k : ℕ) : stickyQuotient num den ≠ k * (5 * 10 ^ i) := fun h => by
    rw [h, Nat.mul_left_comm, Nat.mul_mod_right] at hsticky
    exact hsticky rfl
  have hleft : halfEven (stickyQuotient num den / 10 ^ (i + 1)) = (m + 1) / 2 := by
    rw [hpow]
    refine halfEven_of_band hM ?_ ?_
    · exact_mod_cast (hlow.trans (le_stickyQuotient num den)).lt_of_ne (hne m).symm
    · exact_mod_cast ((stickyQuotient_le num den).trans hhigh).lt_of_ne (hne (m + 1))
  have hright : halfEven (num / den / 10 ^ (i + 1)) = (m + 1) / 2 := by
    rw [hpow]
    refine halfEven_of_band hM ?_ ?_
    · refine lt_of_le_of_lt ?_ (quotient_lt hden hrem)
      exact_mod_cast hlow
    · refine (lt_quotient_add_one hden).trans_le ?_
      exact_mod_cast hhigh
  rw [hleft, hright]

/-- So the quotient and the digits that are computed of it have the same nearest decimal. -/
theorem nearest_sticky (hden : 0 < den) (hrem : num % den ≠ 0)
    (hlong : tenTo precision ≤ num / den) (e : ℤ) :
    nearest (magnitude (stickyQuotient num den) e) = nearest (num / den * 10 ^ e) := by
  set q := num / den with hq
  have hq0 : q ≠ 0 := ((tenTo_pos _).trans_le hlong).ne'
  have hcount : precision < digitCount q := by
    by_contra h
    exact absurd ((digitCount_le_iff hq0).mp (Nat.not_lt.mp h)) (Nat.not_lt.mpr hlong)
  have hpos := ten_zpow_pos e
  have hsticky : stickyQuotient num den < tenTo (digitCount q) := by
    refine ((stickyQuotient_le num den).trans (lt_tenTo_digitCount q)).lt_of_ne fun h => ?_
    have hmod := stickyQuotient_mod hrem
    rw [h, ← Nat.sub_add_cancel (show 1 ≤ digitCount q by omega), tenTo_add] at hmod
    exact hmod (by change _ * 10 % 5 = 0; omega)
  -- Both begin with a digit at the same place, so they are on the same grid.
  have hgrid {z : ℚ} (hlow : (q : ℚ) ≤ z) (hhigh : z < tenTo (digitCount q)) :
      gridExponent (z * 10 ^ e) = max (digitCount q + e - precision) minExponent := by
    rw [← sub_add_cancel (digitCount q + e : ℤ) 1]
    refine gridExponent_eq ((le_magnitude hq0).trans ?_) ?_
    · exact mul_le_mul_of_nonneg_right hlow hpos.le
    · rw [sub_add_cancel, ten_zpow_add, ← cast_tenTo]
      exact mul_lt_mul_of_pos_right hhigh hpos
  obtain ⟨j, hj⟩ : ∃ j : ℕ, max (digitCount q + e - precision) minExponent = e + j :=
    ⟨(max (digitCount q + e - precision) minExponent - e).toNat, by omega⟩
  have hscale (z : ℚ) : z * 10 ^ e / 10 ^ (e + j) = z / 10 ^ j := by
    rw [ten_zpow_add, zpow_natCast]
    field_simp
  have hleft := hgrid (Nat.cast_le.mpr (le_stickyQuotient num den)) (Nat.cast_lt.mpr hsticky)
  have hright := hgrid (quotient_lt hden hrem).le ((lt_quotient_add_one hden).trans_le
    (by exact_mod_cast lt_tenTo_digitCount q))
  rw [nearest, nearest, magnitude, hleft, hright, hj, hscale, hscale,
    halfEven_sticky hden hrem (by omega)]

theorem magnitude_reduceTo (ideal : ℤ) (fuel c : ℕ) (e : ℤ) :
    magnitude (reduceTo ideal fuel c e).1 (reduceTo ideal fuel c e).2 = magnitude c e := by
  induction fuel generalizing c e with
  | zero => rfl
  | succ fuel ih =>
    unfold reduceTo
    split
    · rename_i h
      have hmod : c % 10 = 0 := by simp_all
      have hc : c = c / 10 * tenTo 1 := by
        change c = c / 10 * 10
        omega
      rw [ih]
      conv_rhs => rw [hc]
      exact magnitude_mul_tenTo.symm
    · rfl

theorem tenTo_le_div (hc : c ≠ 0) (hd : d ≠ 0) {shift : ℤ}
    (hshift : shift = digitCount d - digitCount c + precision + 1) :
    tenTo precision ≤ c * tenTo shift.toNat / (d * tenTo (-shift).toNat) := by
  have hden : 0 < d * tenTo (-shift).toNat := Nat.mul_pos (Nat.pos_of_ne_zero hd) (tenTo_pos _)
  have hcount : digitCount c ≠ 0 := fun h => by
    have := (digitCount_le_iff hc).mp h.le
    change c < 1 at this
    omega
  rw [Nat.le_div_iff_mul_le hden]
  calc tenTo precision * (d * tenTo (-shift).toNat)
      ≤ tenTo precision * (tenTo (digitCount d) * tenTo (-shift).toNat) :=
        Nat.mul_le_mul_left _ (Nat.mul_le_mul_right _ (lt_tenTo_digitCount d).le)
    _ = tenTo (precision + (digitCount d + (-shift).toNat)) := by rw [tenTo_add, tenTo_add]
    _ = tenTo (digitCount c - 1 + shift.toNat) := congrArg tenTo (by omega)
    _ = tenTo (digitCount c - 1) * tenTo shift.toNat := tenTo_add _ _
    _ ≤ _ := Nat.mul_le_mul_right _ (tenTo_le_of_digitCount hc)

theorem magnitude_div (hd : d ≠ 0) (shift : ℤ) : magnitude c e / magnitude d f =
    (c * tenTo shift.toNat : ℕ) / (d * tenTo (-shift).toNat : ℕ) * 10 ^ (e - f - shift) := by
  have hd' : (d : ℚ) ≠ 0 := Nat.cast_ne_zero.mpr hd
  have hf : (10 : ℚ) ^ f ≠ 0 := (ten_zpow_pos f).ne'
  have hsplit : (10 : ℚ) ^ e * 10 ^ ((-shift).toNat : ℤ) =
      10 ^ f * 10 ^ (shift.toNat : ℤ) * 10 ^ (e - f - shift) := by
    rw [← ten_zpow_add, ← ten_zpow_add, ← ten_zpow_add]
    congr 1
    omega
  have hdown := (ten_zpow_pos ((-shift).toNat : ℤ)).ne'
  unfold magnitude
  push_cast
  rw [cast_tenTo, cast_tenTo, div_mul_eq_mul_div, div_eq_div_iff (mul_ne_zero hd' hf)
    (mul_ne_zero hd' hdown)]
  linear_combination (c * d : ℚ) * hsplit

theorem rounded_div (s t : Bool) (hd : d ≠ 0) :
    Rounded (div (.finite s c e) (.finite t d f)) (s != t) (magnitude c e / magnitude d f) := by
  unfold div
  dsimp only
  rw [if_neg hd]
  rcases eq_or_ne c 0 with rfl | hc
  · rw [if_pos rfl, magnitude_zero, zero_div, ← magnitude_zero (e := e - f)]
    exact rounded_round _ _ _
  · rw [if_neg hc]
    generalize hshift : (digitCount d - digitCount c + precision + 1 : ℤ) = shift
    have hlong := tenTo_le_div hc hd hshift.symm
    have hden : 0 < d * tenTo (-shift).toNat := Nat.mul_pos (Nat.pos_of_ne_zero hd) (tenTo_pos _)
    rw [magnitude_div hd shift]
    generalize c * tenTo shift.toNat = num at hlong ⊢
    generalize d * tenTo (-shift).toNat = den at hlong hden ⊢
    split
    case isTrue hrem =>
      have hexact : (num / den : ℚ) = (num / den : ℕ) :=
        (Nat.cast_div_charZero (Nat.dvd_of_mod_eq_zero hrem)).symm
      rw [hexact]
      change Rounded _ _ (magnitude (num / den) (e - f - shift))
      rw [← magnitude_reduceTo (e - f) (precision + 2)]
      exact rounded_round _ _ _
    case isFalse hrem =>
      unfold Rounded
      rw [← nearest_sticky hden hrem hlong]
      exact rounded_round _ _ _

end Quotient

end Decimal

end Allowance
