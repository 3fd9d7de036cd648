import Allowance.Proofs.Decimal.Text
import Allowance.Proofs.Ether

/-! # Amounts of ether written and read back

Below 10²⁸ wei an amount of ether is written exactly, without the digits that stand behind the last
place that is asked for. So reading its text gives the wei without these digits, and with all
eighteen places just the wei that were written.
-/

namespace Allowance.Ether

open Decimal

variable {wei places : ℕ}

theorem powerExponent_places (hplaces : places ≤ 18) :
    powerExponent (-places) = .ok (-places : ℤ) := by
  have hlimits := limits
  have hlow : (places : ℤ) ≤ 2 * (maxExponent + precision) := by omega
  have hhigh : (-places : ℤ) ≤ 2 * (maxExponent + precision) := by omega
  have hexponent : ¬ maxExponent < (-places : ℤ) := by omega
  have hmax : max minExponent (-places : ℤ) = -places := by omega
  simp [powerExponent, hlow, hhigh, hexponent, hmax]

theorem div_units (hplaces : places ≤ 18) :
    (wei / 10 ^ 18 : ℚ) / 10 ^ (-places : ℤ) = wei / tenTo (18 - places) := by
  have hsplit : (10 : ℚ) ^ (18 : ℤ) * 10 ^ (-places : ℤ) = tenTo (18 - places) := by
    rw [← ten_zpow_add, cast_tenTo]
    congr 1
    omega
  rw [div_div, ← hsplit]
  rfl

theorem floor_div_tenTo : Rounding.down.apply (wei / tenTo places) = (wei / tenTo places : ℕ) :=
  Rat.floor_natCast_div_natCast _ _

/-- The text of wei is that of the units of the last place that they are worth. -/
theorem weiText_eq (hwei : wei < tenTo precision) (hplaces : places ≤ 18) :
    weiText (.int wei) (.int places) =
      .ok (reduce (.finite false (wei / tenTo (18 - places)) (-places))).text := by
  have hfew : FewDigits (wei / 10 ^ 18 : ℚ) := ⟨wei, -18, hwei, by decide, by
    rw [zpow_neg, div_eq_mul_inv]
    rfl⟩
  have hsmall : ¬ TooLarge (wei / 10 ^ 18 : ℚ) := by
    refine not_tooLarge_of_le ((div_le_self (Nat.cast_nonneg _) (by norm_num)).trans ?_)
    exact_mod_cast hwei.le
  obtain ⟨c, e, hether, hmagnitude⟩ := div_weiPerEther hfew hsmall
  have hunits : Rounding.down.apply (magnitude c e / 10 ^ (-places : ℤ)) =
      (wei / tenTo (18 - places) : ℕ) := by
    rw [hmagnitude, div_units hplaces, floor_div_tenTo]
  have hlt : Rounding.down.apply (magnitude c e / 10 ^ (-places : ℤ)) < tenTo precision := by
    rw [hunits]
    exact_mod_cast (Nat.div_le_self _ _).trans_lt hwei
  have hlimits := limits
  obtain ⟨n, halign, hn⟩ := align_of_lt false (by omega) (by omega) hlt
  obtain rfl : n = wei / tenTo (18 - places) := by
    rw [hunits] at hn
    exact_mod_cast hn
  have hwei' : (Json.int wei).toInt = .ok (wei : ℤ) := rfl
  have hplaces' : negatedPlaces (.int places) = .ok (-places : ℤ) := rfl
  rw [weiText]
  generalize weiPerEther = unit at hether
  rw [hwei', Checked.ok_bind, hether, Checked.ok_bind, hplaces', Checked.ok_bind,
    powerExponent_places hplaces, Checked.ok_bind, halign, Checked.ok_bind]
  rfl

theorem magnitude_units {units : ℕ} (hplaces : places ≤ 18) :
    magnitude units (-places) * 10 ^ 18 = (units * tenTo (18 - places) : ℕ) := by
  have hexponent : (-places + 0 + (18 : ℕ) : ℤ).toNat = 18 - places := by omega
  rw [← magnitude_weiPerEther, magnitude_mul, magnitude_mul_tenTo, magnitude_of_nonneg (by omega),
    hexponent]

/-- Fewer than 10²⁸ wei, written as ether with at most a number of places, are a plain numeral, and
reading it gives the wei without what is behind the last place. -/
theorem parseEther_weiText (hwei : wei < tenTo 28) (hplaces : places ≤ 18) :
    ∃ s, weiText (.int wei) (.int places) = .ok s ∧ Text.Plain s ∧
      parseEther (.string s) = .ok ((wei - wei % tenTo (18 - places) : ℕ) : ℤ) ∧
      (places = 18 → parseEther (.string s) = .ok (wei : ℤ)) := by
  have hkept : wei / tenTo (18 - places) * tenTo (18 - places) =
      wei - wei % tenTo (18 - places) := by
    rw [Nat.mul_comm]
    exact Nat.mul_div_self_eq_mod_sub_self
  have htext := weiText_eq hwei hplaces
  have hunits : wei / tenTo (18 - places) < tenTo 28 := (Nat.div_le_self _ _).trans_lt hwei
  generalize wei / tenTo (18 - places) = units at hkept htext hunits
  have hcount : digitCount units ≤ 28 := digitCount_le (by decide) hunits
  have hlimits := limits
  obtain ⟨hplain, c, e, hread, hmagnitude⟩ :=
    text_reduce (c := units) (e := -places) (by omega) (by omega)
  have hle : wei - wei % tenTo (18 - places) ≤ tenTo precision := (Nat.sub_le _ _).trans hwei.le
  -- The wei that are kept have few digits, so that reading does not round them.
  have hnonneg : 0 ≤ magnitude c e := mul_nonneg (Nat.cast_nonneg _) (ten_zpow_pos e).le
  have hparsed : Truncated (parseEther (.string (reduce (.finite false units (-places))).text))
      (nearest (magnitude c e * 10 ^ 18)) := parseEther_truncated hread rfl hnonneg
  rw [hmagnitude, magnitude_units hplaces, hkept,
    nearest_eq (fewDigits_natCast hle) (Nat.cast_nonneg _)] at hparsed
  refine ⟨_, htext, hplain, hparsed.natCast hle, fun hall => ?_⟩
  have hwhole : wei - wei % tenTo (18 - places) = wei := by
    rw [hall]
    exact congrArg (wei - ·) (Nat.mod_one wei)
  rw [hparsed.natCast hle, hwhole]

/-- Of more than a thousand million ether the first six places are kept. -/
theorem parseEther_weiText_sixPlaces :
    1234567890123456789012345678 < tenTo 28 ∧ 6 ≤ 18 ∧
      weiText (.int 1234567890123456789012345678) (.int 6) = .ok "1234567890.123456" ∧
      Text.Plain "1234567890.123456" ∧
      parseEther (.string "1234567890.123456") = .ok 1234567890123456000000000000 := by
  have htext : weiText (.int 1234567890123456789012345678) (.int 6) = .ok "1234567890.123456" :=
    Checked.gives_iff.mp (by decide +kernel)
  have hwei : 1234567890123456789012345678 < tenTo 28 := by decide
  have hplaces : 6 ≤ 18 := by decide
  obtain ⟨s, hs, hplain, hparsed, -⟩ := parseEther_weiText hwei hplaces
  obtain rfl : "1234567890.123456" = s := Except.ok.inj (htext.symm.trans hs)
  exact ⟨hwei, hplaces, htext, hplain, hparsed⟩

end Allowance.Ether
