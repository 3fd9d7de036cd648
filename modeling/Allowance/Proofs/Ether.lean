import Allowance.Ether
import Allowance.Proofs.Checked
import Allowance.Proofs.Decimal.Alignment

/-! # What conversions give

Amounts become wei by arithmetic that rounds once, before the fraction of a wei is dropped. So the
wei are the whole part of the nearest decimal: that is the whole part of the exact amount when the
amount has few enough digits, and one wei more when the amount is rounded up to a whole wei.
-/

namespace Allowance.Ether

open Decimal

variable {s negative : Bool} {c : ℕ} {e : ℤ} {x y p : ℚ} {amount u q : Decimal}
  {ether usd price : Json} {result : Checked Decimal} {wei : Checked ℤ}

/-- The result is the whole part of a number, or a fault if the number is too large. -/
def Truncated (result : Checked ℤ) (y : ℚ) : Prop :=
  (TooLarge y → result = misuse .decimalTooLarge) ∧ (¬ TooLarge y → result = .ok ⌊y⌋)

theorem weiPerEther_eq : weiPerEther = .finite false (tenTo 18) 0 := rfl

theorem magnitude_weiPerEther : magnitude (tenTo 18) 0 = 10 ^ 18 := by
  rw [magnitude, cast_tenTo, zpow_zero, mul_one]
  norm_num

section Signs

theorem finite_of_nonneg (h : amount.value? = some x) (hx : 0 ≤ x) :
    ∃ s c e, amount = .finite s c e ∧ magnitude c e = x ∧ (s = true → c = 0) := by
  cases amount with
  | finite s c e =>
    refine ⟨s, c, e, rfl, ?_⟩
    cases s with
    | false => exact ⟨Option.some.inj h, nofun⟩
    | true =>
      obtain rfl : -magnitude c e = x := Option.some.inj h
      have hc : c = 0 := by
        by_contra hc
        have := magnitude_pos (e := e) hc
        linarith
      simp [hc]
  | infinity s => cases h
  | nan signaling => cases h

theorem finite_of_pos (h : amount.value? = some x) (hx : 0 < x) :
    ∃ c e, amount = .finite false c e ∧ magnitude c e = x ∧ c ≠ 0 := by
  obtain ⟨s, c, e, rfl, rfl, hs⟩ := finite_of_nonneg h hx.le
  have hc : c ≠ 0 := by
    rintro rfl
    simp at hx
  cases s with
  | false => exact ⟨c, e, rfl, rfl, hc⟩
  | true => exact absurd (hs rfl) hc

theorem isNegative_eq (hs : s = true → c = 0) : isNegative (.finite s c e) = .ok false := by
  cases s <;> simp_all [isNegative]

theorem nonPositive_eq (hc : c ≠ 0) : nonPositive (.finite false c e) = .ok false := by
  simp [nonPositive, hc]

end Signs

section Truncation

theorem truncated_toInt (hs : s = true → y = 0) (h : magnitude c e = y) (hy : ¬ TooLarge y) :
    Truncated (toInt (.finite s c e)) y := by
  refine ⟨fun hlarge => absurd hlarge hy, fun _ => ?_⟩
  rw [toInt_finite, h]
  cases s with
  | false => rfl
  | true => simp [hs rfl]

/-- Truncating a result of arithmetic gives the whole part of the nearest decimal. -/
theorem truncated_of_rounded (h : Rounded result s x) (hs : s = true → x = 0) :
    Truncated (result >>= toInt) (nearest x) := by
  by_cases hlarge : TooLarge (nearest x)
  · refine ⟨fun _ => ?_, fun hno => absurd hlarge hno⟩
    rw [h.1 hlarge]
    rfl
  · obtain ⟨c, e, hresult, hmagnitude, -, -⟩ := h.2 hlarge
    rw [hresult]
    refine truncated_toInt (fun htrue => ?_) hmagnitude hlarge
    rw [hs htrue, nearest_of_zero]

end Truncation

section Reading

theorem parseEther_eq (hread : Decimal.read? ether.plain = some amount)
    (hamount : isNegative amount = .ok false) :
    parseEther ether = mul amount weiPerEther >>= toInt := by
  unfold parseEther
  generalize weiPerEther = unit
  rw [hread]
  dsimp only
  rw [hamount, Checked.ok_bind, if_neg Bool.false_ne_true]

theorem usdToWei_eq (husd : decimalOf usd = .ok u) (hprice : decimalOf price = .ok q)
    (hq : nonPositive q = .ok false) :
    usdToWei usd price = div u q >>= fun ether => mul ether weiPerEther >>= toInt := by
  unfold usdToWei
  generalize weiPerEther = unit
  rw [hprice, Checked.ok_bind, hq, Checked.ok_bind, if_neg Bool.false_ne_true, husd,
    Checked.ok_bind]

end Reading

theorem parseEther_truncated (hread : Decimal.read? ether.plain = some amount)
    (hvalue : amount.value? = some x) (hx : 0 ≤ x) :
    Truncated (parseEther ether) (nearest (x * 10 ^ 18)) := by
  obtain ⟨s, c, e, rfl, rfl, hs⟩ := finite_of_nonneg hvalue hx
  rw [parseEther_eq hread (isNegative_eq hs), weiPerEther_eq, ← magnitude_weiPerEther]
  refine truncated_of_rounded (rounded_mul s false) fun htrue => ?_
  rw [hs (by simpa using htrue), magnitude_zero, zero_mul]

theorem nearest_mul_weiPerEther (hc : c < tenTo precision) (he : minExponent ≤ e) :
    nearest (magnitude c e * magnitude (tenTo 18) 0) = magnitude c e * magnitude (tenTo 18) 0 := by
  have hproduct : magnitude c e * magnitude (tenTo 18) 0 = magnitude c (e + 18) := by
    rw [magnitude_mul, add_zero]
    exact magnitude_mul_tenTo
  rw [hproduct]
  refine nearest_eq (fewDigits_magnitude hc (by omega)) ?_
  exact mul_nonneg (Nat.cast_nonneg _) (ten_zpow_pos _).le

theorem usdToWei_truncated (husd : decimalOf usd = .ok u) (hprice : decimalOf price = .ok q)
    (hu : u.value? = some x) (hx : 0 ≤ x) (hq : q.value? = some p) (hp : 0 < p) :
    Truncated (usdToWei usd price) (nearest (x / p) * 10 ^ 18) := by
  obtain ⟨s, c, e, rfl, rfl, hs⟩ := finite_of_nonneg hu hx
  obtain ⟨d, f, rfl, rfl, hd⟩ := finite_of_pos hq hp
  rw [usdToWei_eq husd hprice (nonPositive_eq hd)]
  have hdiv := rounded_div (c := c) (e := e) (f := f) s false hd
  have hscale : (1 : ℚ) ≤ 10 ^ 18 := by norm_num
  by_cases hlarge : TooLarge (nearest (magnitude c e / magnitude d f))
  · -- Then the product is too large, too.
    have hproduct : TooLarge (nearest (magnitude c e / magnitude d f) * 10 ^ 18) := by
      have hpos := (ten_zpow_pos (maxExponent + 1)).le.trans hlarge
      exact hlarge.trans (le_mul_of_one_le_right hpos hscale)
    refine ⟨fun _ => ?_, fun hno => absurd hproduct hno⟩
    rw [hdiv.1 hlarge]
    rfl
  · -- The quotient has few digits, so the product is exact.
    obtain ⟨c', e', hquotient, hmagnitude, hc', he'⟩ := hdiv.2 hlarge
    rw [hquotient, Checked.ok_bind, weiPerEther_eq, ← hmagnitude, ← magnitude_weiPerEther,
      ← nearest_mul_weiPerEther hc' he']
    refine truncated_of_rounded (rounded_mul (s != false) false) fun htrue => ?_
    have hzero : s = true := by simpa using htrue
    rw [hmagnitude, hs hzero, magnitude_zero, zero_div, nearest_of_zero, zero_mul]

section Dollars

variable {wei : ℤ} {v : Double}

theorem div_weiPerEther {n : ℕ} (hfew : FewDigits (n / 10 ^ 18))
    (hsmall : ¬ TooLarge (n / 10 ^ 18)) : ∃ c e,
      div (.ofInt n) weiPerEther = .ok (.finite false c e) ∧ magnitude c e = n / 10 ^ 18 := by
  have hofInt : Decimal.ofInt n = .finite false n 0 := by simp [Decimal.ofInt]
  have hwhole : magnitude n 0 = n := by simp [magnitude]
  have hdiv := rounded_div (c := n) (e := 0) (f := 0) false false (tenTo_pos 18).ne'
  have hnonneg : (0 : ℚ) ≤ n / 10 ^ 18 := by positivity
  rw [hwhole, magnitude_weiPerEther, Rounded, nearest_eq hfew hnonneg] at hdiv
  obtain ⟨c, e, hquotient, hmagnitude, -, -⟩ := hdiv.2 hsmall
  exact ⟨c, e, by rw [hofInt, weiPerEther_eq]; exact hquotient, hmagnitude⟩

theorem weiToUsd_eq_ok (hprice : decimalOf price = .ok q) :
    weiToUsd (.int wei) price = .ok v ↔ ∃ ether dollars cents,
      div (.ofInt wei) weiPerEther = .ok ether ∧ mul ether q = .ok dollars ∧
        align dollars centExponent .halfEven = .ok cents ∧ cents.toDouble = v := by
  unfold weiToUsd weiToCents
  generalize weiPerEther = unit
  have hwei : (Json.int wei).toInt = .ok wei := rfl
  simp only [hwei, hprice, Checked.ok_bind, Checked.bind_eq_ok, Checked.pure_eq_ok]
  constructor
  · rintro ⟨cents, ⟨ether, hether, dollars, hdollars, hcents⟩, hv⟩
    exact ⟨ether, dollars, cents, hether, hdollars, hcents, hv⟩
  · rintro ⟨ether, dollars, cents, hether, hdollars, hcents, hv⟩
    exact ⟨cents, ⟨ether, hether, dollars, hdollars, hcents⟩, hv⟩

/-- The dollars for an amount of wei are its exact worth after two roundings of the arithmetic, then
rounded to cents. -/
theorem weiToUsd_cents (hwei : 0 ≤ wei) (hprice : decimalOf price = .ok q) (hq : q.value? = some p)
    (hp : 0 < p) (h : weiToUsd (.int wei) price = .ok v) :
    ∃ cents : ℕ, v = .ofDecimal false cents centExponent ∧
      (cents : ℤ) = halfEven (nearest (nearest (wei / 10 ^ 18) * p) * 100) := by
  obtain ⟨d, f, rfl, rfl, -⟩ := finite_of_pos hq hp
  obtain ⟨ether, dollars, cents, hether, hdollars, hcents, rfl⟩ := (weiToUsd_eq_ok hprice).mp h
  obtain ⟨n, rfl⟩ := Int.eq_ofNat_of_zero_le hwei
  have hofInt : Decimal.ofInt n = .finite false n 0 := by simp [Decimal.ofInt]
  rw [hofInt, weiPerEther_eq] at hether
  obtain ⟨c, e, rfl, hquotient⟩ := (rounded_div false false (tenTo_pos 18).ne').eq_ok hether
  obtain ⟨c', e', rfl, hproduct⟩ := (rounded_mul _ false).eq_ok hdollars
  obtain ⟨k, rfl, hk⟩ := align_eq_ok hcents
  have hwhole : magnitude n 0 = ((n : ℤ) : ℚ) := by simp [magnitude]
  have hcent : (10 : ℚ) ^ centExponent = 1 / 100 := by norm_num [centExponent]
  rw [hproduct, hquotient, hwhole, magnitude_weiPerEther, hcent, div_div_eq_mul_div, div_one] at hk
  exact ⟨k, rfl, hk⟩

end Dollars

section Amounts

theorem not_tooLarge_of_le (h : y ≤ tenTo precision) : ¬ TooLarge y := by
  refine not_le.mpr (h.trans_lt ?_)
  rw [cast_tenTo]
  exact ten_zpow_lt.mpr (by decide)

theorem not_tooLarge_nearest (hx : 0 ≤ x) (h : x < tenTo precision) : ¬ TooLarge (nearest x) := by
  refine not_tooLarge_of_le ?_
  rcases hx.eq_or_lt with rfl | hpos
  · rw [nearest_of_zero]
    exact Nat.cast_nonneg _
  · exact nearest_le (fewDigits_natCast le_rfl) hpos h.le

/-- Conversions to wei drop the fraction of the exact amount when the amount has few enough digits.
In general they drop that of the nearest decimal, which may be one wei more. -/
theorem toWei_truncated (hx : 0 ≤ x) :
    (∀ (ether : Json) (amount : Decimal), Decimal.read? ether.plain = some amount →
      amount.value? = some x →
      Truncated (parseEther ether) (nearest (x * 10 ^ 18)) ∧
      (FewDigits (x * 10 ^ 18) → Truncated (parseEther ether) (x * 10 ^ 18)) ∧
      (x * 10 ^ 18 < tenTo precision → parseEther ether = .ok ⌊x * 10 ^ 18⌋ ∨
        nearest (x * 10 ^ 18) = ⌊x * 10 ^ 18⌋ + 1 ∧
          parseEther ether = .ok (⌊x * 10 ^ 18⌋ + 1))) ∧
    (∀ (usd price : Json) (u q : Decimal) (p : ℚ), decimalOf usd = .ok u → u.value? = some x →
      decimalOf price = .ok q → q.value? = some p → 0 < p →
      Truncated (usdToWei usd price) (nearest (x / p) * 10 ^ 18) ∧
      (FewDigits (x / p) → Truncated (usdToWei usd price) (x / p * 10 ^ 18))) := by
  constructor
  · intro ether amount hread hvalue
    have hwei : 0 ≤ x * 10 ^ 18 := mul_nonneg hx (by norm_num)
    have htruncated := parseEther_truncated hread hvalue hx
    refine ⟨htruncated, ?_, ?_⟩
    · intro hfew
      rwa [nearest_eq hfew hwei] at htruncated
    · intro hlt
      have hresult := htruncated.2 (not_tooLarge_nearest hwei hlt)
      rcases floor_nearest hwei hlt with hfloor | hnext
      · left
        rwa [hfloor] at hresult
      · right
        rw [hnext, Int.floor_add_one, Int.floor_intCast] at hresult
        exact ⟨hnext, hresult⟩
  · intro usd price u q p husd hu hprice hq hp
    have htruncated := usdToWei_truncated husd hprice hu hx hq hp
    refine ⟨htruncated, ?_⟩
    intro hfew
    rwa [nearest_eq hfew (div_nonneg hx hp.le)] at htruncated

theorem Truncated.natCast {n : ℕ} {wei : Checked ℤ} (h : Truncated wei n)
    (hn : n ≤ tenTo precision) : wei = .ok (n : ℤ) := by
  rw [h.2 (not_tooLarge_of_le (Nat.cast_le.mpr hn)), Int.floor_natCast]

/-- A tenth of an ether, and twenty dollars at two thousand for an ether. -/
theorem toWei_truncated_round : Decimal.read? "0.1" = some (.finite false 1 (-1)) ∧
    parseEther (.string "0.1") = .ok 100000000000000000 ∧
    decimalOf (.int 20) = .ok (.finite false 20 0) ∧
    decimalOf (.int 2000) = .ok (.finite false 2000 0) ∧
    usdToWei (.int 20) (.int 2000) = .ok 10000000000000000 := by
  have hread : Decimal.read? "0.1" = some (.finite false 1 (-1)) := by decide +kernel
  have husd : decimalOf (.int 20) = .ok (.finite false 20 0) :=
    Checked.gives_iff.mp (by decide +kernel)
  have hprice : decimalOf (.int 2000) = .ok (.finite false 2000 0) :=
    Checked.gives_iff.mp (by decide +kernel)
  have hdime : magnitude 1 (-1) * 10 ^ 18 = (100000000000000000 : ℕ) := by norm_num [magnitude]
  have hquotient : magnitude 20 0 / magnitude 2000 0 = magnitude 1 (-2) := by norm_num [magnitude]
  have hcent : magnitude 1 (-2) * 10 ^ 18 = (10000000000000000 : ℕ) := by norm_num [magnitude]
  have hamount : 0 ≤ magnitude 1 (-1) := (magnitude_pos one_ne_zero).le
  have hdollars : 0 ≤ magnitude 20 0 := (magnitude_pos (by decide)).le
  have hparsed := ((toWei_truncated hamount).1 (.string "0.1") _ hread rfl).2.1
  have hconverted := ((toWei_truncated hdollars).2 _ _ _ _ (magnitude 2000 0) husd rfl hprice rfl
    (magnitude_pos (by decide))).2
  rw [hdime] at hparsed
  rw [hquotient, hcent] at hconverted
  exact ⟨hread, (hparsed (fewDigits_natCast (by decide))).natCast (by decide), husd, hprice,
    (hconverted (fewDigits_magnitude (by decide) (by decide))).natCast (by decide)⟩

/-- Just below one ether there is less than one ether's wei, and twenty billion dollars at three
dollars do not end in a seven. -/
theorem toWei_rounds_up :
    (Decimal.read? "0.9999999999999999999999999999999" =
        some (.finite false 9999999999999999999999999999999 (-31)) ∧
      ⌊magnitude 9999999999999999999999999999999 (-31) * 10 ^ 18⌋ = 999999999999999999 ∧
      parseEther (.string "0.9999999999999999999999999999999") = .ok 1000000000000000000) ∧
    (⌊(20000000000 * 10 ^ 18 / 3 : ℚ)⌋ = 6666666666666666666666666666 ∧
      usdToWei (.int 20000000000) (.int 3) = .ok 6666666666666666666666666667) := by
  refine ⟨⟨by decide +kernel, ?_, Checked.gives_iff.mp (by decide +kernel)⟩, ?_,
    Checked.gives_iff.mp (by decide +kernel)⟩
  · rw [Int.floor_eq_iff]
    norm_num [magnitude]
  · rw [Int.floor_eq_iff]
    norm_num

end Amounts

end Allowance.Ether
