import Allowance.Proofs.Ether
import Allowance.Proofs.Evaluation.Verdict
import Allowance.Proofs.Number.Nearest

/-! # The limit holds for wei

Wei become dollars by four roundings. None takes an amount that reaches a limit of whole dollars
below it: arithmetic loses less than half a cent, the cents are rounded to the nearest, and the
double crosses no whole number. So what a compiled document does not deny for its value is worth
less than its limit, exactly.
-/

namespace Allowance

open Decimal

section Rounding

variable {x p : ℚ} {wei : ℤ} {L cents : ℕ}

theorem fewDigits_below (hL : 1 ≤ L) (hhigh : L ≤ 10 ^ 15) : FewDigits ((L : ℚ) - 4 / 1000) := by
  have hlt : 1000 * L - 4 < tenTo precision := by
    have hbound : 10 ^ 18 < tenTo precision := by decide
    omega
  refine ⟨1000 * L - 4, -3, hlt, by decide, ?_⟩
  push_cast [Nat.cast_sub (show 4 ≤ 1000 * L by omega)]
  ring

/-- The two roundings of the arithmetic lose less than half a cent of an amount that is not huge. -/
theorem le_nearest_mul (hx : 10 ^ (minExponent + precision) ≤ x) (hp : 0 < p) (hL : 1 ≤ L)
    (hhigh : L ≤ 10 ^ 15) (h : L ≤ x * p) : (L : ℚ) - 4 / 1000 ≤ nearest (nearest x * p) := by
  have hL' : (1 : ℚ) ≤ L := by exact_mod_cast hL
  have hhigh' : (L : ℚ) ≤ 10 ^ 15 := by exact_mod_cast hhigh
  have hlost : (10 : ℚ) ^ (1 - precision : ℤ) / 2 ≤ 1 / 10 ^ 20 := by norm_num [precision]
  have hproduct : (L : ℚ) - 4 / 1000 ≤ nearest x * p := by
    calc (L : ℚ) - 4 / 1000 ≤ L * (1 - 1 / 10 ^ 20) := by linarith
      _ ≤ L * (1 - 10 ^ (1 - precision : ℤ) / 2) := by gcongr
      _ ≤ x * p * (1 - 10 ^ (1 - precision : ℤ) / 2) :=
        mul_le_mul_of_nonneg_right h (by linarith)
      _ = x * (1 - 10 ^ (1 - precision : ℤ) / 2) * p := by ring
      _ ≤ nearest x * p := mul_le_mul_of_nonneg_right (mul_le_nearest hx) hp.le
  exact le_nearest (fewDigits_below hL hhigh) (by linarith) hproduct

theorem le_cents (hwei : 0 ≤ wei) (hp : 0 < p) (hL : 1 ≤ L) (hhigh : L ≤ 10 ^ 15)
    (h : (L : ℚ) ≤ wei * p / 10 ^ 18) :
    (100 * L : ℤ) ≤ halfEven (nearest (nearest (wei / 10 ^ 18) * p) * 100) := by
  rw [mul_div_right_comm] at h
  have hone : (1 : ℚ) ≤ wei := by
    rcases hwei.eq_or_lt with rfl | hpos
    · have : (1 : ℚ) ≤ L := by exact_mod_cast hL
      norm_num at h
      linarith
    · exact_mod_cast hpos
  have hx : (10 : ℚ) ^ (minExponent + precision) ≤ wei / 10 ^ 18 := by
    calc (10 : ℚ) ^ (minExponent + precision) ≤ 10 ^ (-18 : ℤ) := ten_zpow_le.mpr (by decide)
      _ = 1 / 10 ^ 18 := by norm_num
      _ ≤ _ := div_le_div_of_nonneg_right hone (by norm_num)
  have hdollars := le_nearest_mul hx hp hL hhigh h
  have hround := le_two_mul_halfEven (nearest (nearest (wei / 10 ^ 18) * p) * 100)
  have hlt : (100 * L : ℚ) < halfEven (nearest (nearest (wei / 10 ^ 18) * p) * 100) + 1 := by
    linarith
  have : (100 * L : ℤ) < halfEven (nearest (nearest (wei / 10 ^ 18) * p) * 100) + 1 := by
    exact_mod_cast hlt
  omega

theorem le_value?_of_cents (hL : 1 ≤ L) (hbits : L < twoTo 53) (h : 100 * L ≤ cents) :
    ∃ y, (Double.ofDecimal false cents Ether.centExponent).value? = some y ∧
      ((L : ℚ) : WithBotTop ℚ) ≤ y := by
  have hratio : Double.ofDecimal false cents Ether.centExponent =
      Double.ofRatio false cents (tenTo 2) := by
    have hcents : cents ≠ 0 := by omega
    have hexponent : ¬ Ether.centExponent < -(cents.log2 + 330 : ℤ) := by
      unfold Ether.centExponent
      omega
    rw [Double.ofDecimal, if_neg hcents, if_neg (by decide), if_neg (by decide), if_neg hexponent]
    rfl
  have hunits : L * Double.unitsPerOne ≤ Double.nearestUnits cents (tenTo 2) := by
    refine Double.le_nearestUnits (tenTo_pos 2) (fewBits_of_lt hbits).mul_unitsPerOne ?_
    rw [Nat.mul_right_comm]
    exact Nat.mul_le_mul_right _ (by rwa [Nat.mul_comm L])
  rw [hratio, Double.ofRatio_eq]
  split
  · exact ⟨⊤, rfl, le_top⟩
  · refine ⟨_, rfl, WithBotTop.coe_le_coe.mpr ?_⟩
    rw [if_neg Bool.false_ne_true, le_div_iff₀ Double.unitsPerOne_pos]
    exact_mod_cast hunits

theorem worth_lt_of_below {price : Json} {q : Decimal} {v : Double} {limit : Number}
    (hlimit : limit.value? = some ((L : ℚ) : WithBotTop ℚ)) (hL : 1 ≤ L)
    (hhigh : L ≤ 10 ^ 15) (hwei : 0 ≤ wei) (hprice : Ether.decimalOf price = .ok q)
    (hq : q.value? = some p) (hp : 0 < p) (hv : Ether.weiToUsd (.int wei) price = .ok v)
    (hbelow : (Number.double v).Below limit) : wei * p / 10 ^ 18 < L := by
  by_contra hno
  obtain ⟨cents, rfl, hcents⟩ := Ether.weiToUsd_cents hwei hprice hq hp hv
  have hreached := le_cents hwei hp hL hhigh (not_lt.mp hno)
  have hbits : L < twoTo 53 := hhigh.trans_lt (by decide)
  have hcents' : 100 * L ≤ cents := by
    rw [← hcents] at hreached
    exact_mod_cast hreached
  obtain ⟨y, hy, hle⟩ := le_value?_of_cents hL hbits hcents'
  obtain ⟨x, z, hx, hz, hlt⟩ := hbelow
  obtain rfl : y = x := Option.some.inj (hy.symm.trans hx)
  obtain rfl : _ = z := Option.some.inj (hlimit.symm.trans hz)
  exact absurd hlt (not_lt.mpr hle)

end Rounding

theorem Options.usdLimit_of_check {o : Options} {defaultChains : Json} {s : Settings}
    {limit : Number} (hs : o.check defaultChains = .ok s) (hlimit : o.usdLimit = .number limit) :
    s.usdLimit = some limit := by
  rcases checkLimit_eq_ok.mp (check_eq_ok.mp hs).1 with ⟨hnull, -⟩ | ⟨n, hn, -, -, hsome⟩
  · simp [hlimit] at hnull
  · obtain rfl : limit = n := by simpa [hlimit] using hn
    exact hsome

namespace Settings

variable {s : Settings} {r : Request} {value limit : Number}

theorem transferConditions_of_limit (hs : s.usdLimit = some limit) :
    ∃ rest, s.transferConditions = ⟨.value, .lessThan limit⟩ :: rest := by
  rw [transferConditions, hs]
  exact ⟨_, rfl⟩

theorem below_of_check (hlimit : limit ≠ .double .nan) (hvalue : value ≠ .double .nan)
    (hr : r.valueUsd = some value)
    (h : ∀ cause, (Condition.mk .value (.lessThan limit)).check r = some cause →
      cause.code ≠ "value_limit") : value.Below limit := by
  cases hcheck : (Condition.mk .value (.lessThan limit)).check r with
  | some cause => exact absurd (Condition.code_of_check hcheck) (h cause hcheck)
  | none =>
    rw [← Number.lt_iff, ← Number.le_eq_false_iff hlimit hvalue]
    exact Condition.check_lessThan.mp hcheck value hr

end Settings

namespace Document

variable {d : Document} {r : Request} {now : Option Number} {c : Condition}
  {rest : List Condition} {cause : Denial}

/-- Where every permission that allows a request begins with the same condition, a request that
comes to the conditions and fails this one is denied with its code. -/
theorem code?_of_first (hopen : d.Open now) (hdeny : ¬ d.Denies r) (hallow : d.Allows r)
    (hcs : ∀ A ∈ d.permissions, A.Rules .allow r → ∃ rest, A.conditions = c :: rest)
    (hcheck : c.check r = some cause) : (d.evaluate r now).code? = some cause.code := by
  obtain ⟨A, hA⟩ := Option.ne_none_iff_exists'.mp (mt find?_allow_eq_none.mp (not_not.mpr hallow))
  have hA := find?_allow_eq_some.mp hA
  obtain ⟨rest, hconditions⟩ := hcs A hA.mem hA.1
  rw [evaluate_of_open hopen, Decision.code?, decide_of_firstAllowing hdeny hA, hconditions,
    List.findSome?_cons, hcheck]
  rfl

end Document

/-- A transfer whose value a compiled document does not deny for reaching its limit, and in
particular one that it allows, is worth less than the limit, exactly. Without its code that is known
of the decision only on requests that reach the conditions: outside of the window, for a denied
action or where nothing allows the action, another denial comes before that of the limit. -/
theorem Options.compile_limit_holds {o : Options} {partner defaultChains price : Json}
    {d : Document} {limit : Number} {L : ℕ} {wei : ℤ} {q : Decimal} {p : ℚ} {v : Double}
    {r : Request} (hd : o.compile partner defaultChains = .ok d)
    (hlimit : o.usdLimit = .number limit)
    (hL : limit.value? = some ((L : ℚ) : WithBotTop ℚ)) (hlow : 1 ≤ L) (hhigh : L ≤ 10 ^ 15)
    (hwei : 0 ≤ wei) (hprice : Ether.decimalOf price = .ok q) (hq : q.value? = some p) (hp : 0 < p)
    (hv : Ether.weiToUsd (.int wei) price = .ok v) (hr : r.action = .transfer)
    (hvalue : r.valueUsd = some (.double v)) :
    (∀ A ∈ d.permissions, A.effect = .allow → A.action = .transfer →
      (∀ c ∈ A.conditions, ∀ cause, c.check r = some cause → cause.code ≠ "value_limit") →
      wei * p / 10 ^ 18 < L) ∧
    (∀ now, d.Open now → ¬ d.Denies r → d.Allows r →
      (d.evaluate r now).code? ≠ some "value_limit" → wei * p / 10 ^ 18 < L) ∧
    (∀ now, (d.evaluate r now).allowed = true → wei * p / 10 ^ 18 < L) := by
  obtain ⟨s, hs, rfl⟩ := compile_eq_ok.mp hd
  obtain ⟨rest, hconditions⟩ :=
    Settings.transferConditions_of_limit (usdLimit_of_check hs hlimit)
  have hnan : limit ≠ .double .nan := by
    rintro rfl
    simp [Double.value?] at hL
  have hvnan : v ≠ .nan := by
    obtain ⟨cents, rfl, -⟩ := Ether.weiToUsd_cents hwei hprice hq hp hv
    exact Double.ofDecimal_ne_nan _ _ _
  -- Everything comes down to the check of the limit.
  have hworth (h : ∀ cause, (Condition.mk .value (.lessThan limit)).check r = some cause →
      cause.code ≠ "value_limit") : wei * p / 10 ^ 18 < L :=
    worth_lt_of_below hL hlow hhigh hwei hprice hq hp hv
      (Settings.below_of_check hnan (by simpa using hvnan) hvalue h)
  refine ⟨?_, ?_, ?_⟩
  · intro A hA heffect haction h
    have hA := Settings.conditions_of_allow hA heffect
    rw [if_pos haction, hconditions] at hA
    exact hworth (h _ (hA ▸ List.mem_cons_self))
  · intro now hopen hdeny hallow hcode
    apply hworth
    intro cause hcheck hcause
    apply hcode
    rw [← hcause]
    refine Document.code?_of_first hopen hdeny hallow ?_ hcheck
    intro A hA hrules
    exact ⟨rest, by rw [Settings.conditions_of_allow hA hrules.1, if_pos (hrules.2.2.trans hr),
      hconditions]⟩
  · intro now hallowed
    obtain ⟨-, -, hnone | hmessage⟩ :=
      Settings.decide_allowed_iff.mp (Document.evaluate_allowed_iff.mp hallowed).2
    · have hcheck := hnone.2 _ (hconditions ▸ List.mem_cons_self)
      apply hworth
      intro cause h
      rw [hcheck] at h
      cases h
    · simp [hr] at hmessage

namespace Options

def etherGift : Request := { giftRequest with valueUsd := some (.double (.ofInt 14)) }

theorem compile_limit_holds_pocketMoney : ∃ d,
    pocketMoney.compile (.string "home") .null = .ok d ∧
      Ether.weiToUsd (.int 7000000000000000) (.int 2000) = .ok (.ofInt 14) ∧
      (d.evaluate etherGift (some 1500)).allowed = true ∧
      ((7000000000000000 : ℤ) * magnitude 2000 0 / 10 ^ 18 : ℚ) < (15 : ℕ) := by
  obtain ⟨d, hd, hallowed⟩ : ∃ d, pocketMoney.compile (.string "home") .null = .ok d ∧
      (d.evaluate etherGift (some 1500)).allowed = true :=
    ⟨_, compile_eq_ok.mpr ⟨_, pocketMoney_check, rfl⟩, by decide +kernel⟩
  have hprice : Ether.decimalOf (.int 2000) = .ok (.finite false 2000 0) :=
    Checked.gives_iff.mp (by decide +kernel)
  have hv : Ether.weiToUsd (.int 7000000000000000) (.int 2000) = .ok (.ofInt 14) :=
    Checked.gives_iff.mp (by decide +kernel)
  refine ⟨d, hd, hv, hallowed, (compile_limit_holds hd rfl ?_ ?_ ?_ ?_ hprice rfl ?_ hv rfl rfl).2.2
    (some 1500) hallowed⟩
  · simp
  · decide
  · decide
  · decide
  · exact magnitude_pos (by decide)

end Options

end Allowance
