import Allowance.Proofs.Document.Reading
import Allowance.Proofs.Evaluation.Condition
import Allowance.Proofs.Number.Nearest
import Allowance.Proofs.Number.Reading

/-! # Integers as arguments

An argument that is the numeral of an integer is read as the nearest double, and the double is
compared with the reference. So a condition decides as the integer itself compares when the integer
has at most 53 significant bits, and also when it is beyond all doubles, where no reference is. Any
other integer differs from its double, and a condition that asks for just this integer refuses it.
-/

namespace Allowance

-- Otherwise the search for instances computes the power of two.
attribute [local irreducible] Double.unitsPerOne

namespace Double

variable {a n : ℤ}

theorem ofInt_eq (a : ℤ) : ofInt a =
    if unitsBeyond ≤ nearestUnits a.natAbs 1 then .infinity (a < 0)
    else .finite (a < 0) (nearestUnits a.natAbs 1) := ofRatio_eq _ _ _

theorem isFinite_ofInt :
    (ofInt a).isFinite = true ↔ nearestUnits a.natAbs 1 < unitsBeyond := by
  rw [ofInt_eq]
  split <;> simp_all [isFinite]

theorem le_nearestUnits_of_beyond (h : (ofInt a).isFinite = false) :
    unitsBeyond ≤ nearestUnits a.natAbs 1 := by
  rw [← Nat.not_lt, ← isFinite_ofInt, h]
  exact Bool.false_ne_true

/-- The double of an integer in range has its value just when the integer has few bits. -/
theorem value?_ofInt (h : (ofInt a).isFinite = true) :
    (ofInt a).value? = some ↑(a : ℚ) ↔ FewBits a.natAbs := by
  have hne : (unitsPerOne : ℚ) ≠ 0 := unitsPerOne_pos.ne'
  have hunits : nearestUnits a.natAbs 1 = a.natAbs * unitsPerOne ↔ FewBits a.natAbs :=
    ⟨fewBits_of_nearestUnits, fun hfew =>
      nearestUnits_eq Nat.one_pos hfew.mul_unitsPerOne (Nat.mul_one _).symm⟩
  have hcast : (nearestUnits a.natAbs 1 : ℚ) = a.natAbs * unitsPerOne ↔ FewBits a.natAbs := by
    rw [← hunits]
    exact_mod_cast Iff.rfl
  rw [ofInt_eq, if_neg (Nat.not_le.mpr (isFinite_ofInt.mp h)), value?, Option.some.injEq,
    WithBotTop.coe_injective.eq_iff, div_eq_iff hne, ← hcast, ← Int.cast_natCast a.natAbs,
    Int.natCast_natAbs]
  by_cases hneg : a < 0
  · simp [hneg, abs_of_neg hneg, neg_eq_iff_eq_neg]
  · simp [hneg, abs_of_nonneg (Int.not_lt.mp hneg)]

theorem value?_ofInt_of_beyond (h : (ofInt a).isFinite = false) :
    (ofInt a).value? = some (if a < 0 then ⊥ else ⊤) := by
  have hle : unitsBeyond ≤ nearestUnits a.natAbs 1 := le_nearestUnits_of_beyond h
  rw [ofInt_eq, if_pos hle, value?]
  simp

theorem natAbs_lt_of_isFinite (hn : (ofInt n).isFinite = true) (ha : (ofInt a).isFinite = false) :
    n.natAbs < a.natAbs := by
  have hlow := isFinite_ofInt.mp hn
  have hhigh := le_nearestUnits_of_beyond ha
  by_contra hle
  have := nearestUnits_mono Nat.one_pos (Nat.not_lt.mp hle)
  omega

/-- The sign of a whole number may also be that of a zero. -/
theorem value?_ofDecimal (negative : Bool) (n : ℕ) :
    (ofDecimal negative n 0).value? = (ofInt (if negative then -(n : ℤ) else n)).value? := by
  rcases Nat.eq_zero_or_pos n with rfl | hn
  · have hfinite : (ofInt 0).isFinite = true := by decide +kernel
    have hvalue := (value?_ofInt hfinite).mpr (fewBits_of_lt (twoTo_pos 53))
    have hsigned : (if negative then -((0 : ℕ) : ℤ) else (0 : ℕ)) = 0 := by simp
    rw [ofDecimal, if_pos rfl, hsigned, hvalue]
    simp [value?]
  · have hmagnitude : n * tenTo (0 : ℤ).toNat = n := Nat.mul_one n
    rw [ofDecimal, if_neg hn.ne', if_neg (by decide), if_pos le_rfl, hmagnitude, ofInt]
    congr 2
    · cases negative <;> simp [hn]
    · cases negative <;> simp

end Double

namespace Text

variable {s : String} {a : ℤ}

theorem Denotes.readDouble? (h : Denotes s a) :
    ∃ d, Text.readDouble? s = some d ∧ d.value? = (Double.ofInt a).value? := by
  obtain ⟨negative, ds, hcore, hds, hdigits, rfl⟩ := h
  obtain ⟨cs, hcs, hsign⟩ := Option.map_eq_some_iff.mp hcore
  refine ⟨.ofDecimal negative (digitsValue ds) 0, ?_, ?_⟩
  · have hhead : ∀ c ∈ ds.head?, isAsciiDigit c = true :=
      fun c hc => hdigits c (List.mem_of_mem_head? hc)
    have hinf : ds.map Char.toLower ≠ "inf".toList := map_toLower_ne hhead (by decide)
    have hinfinity : ds.map Char.toLower ≠ "infinity".toList := map_toLower_ne hhead (by decide)
    have hnan : ds.map Char.toLower ≠ "nan".toList := map_toLower_ne hhead (by decide)
    simp only [Text.readDouble?, hcs, Option.bind_eq_bind, Option.bind_some, hsign, hinf, hinfinity,
      hnan, takeDecimal?_of_digits hds hdigits]
    simp [TakenDecimal.scaled]
  · exact Double.value?_ofDecimal negative (digitsValue ds)

end Text

def Comparator.Relates : Comparator → ℤ → ℤ → Prop
  | .equals, a, n => a = n
  | .greaterThan, a, n => n < a
  | .lessThan, a, n => a < n
  | .includedIn, _, _ => False
  | .notIncludedIn, _, _ => False

namespace Test

variable {t : Test} {s : String} {a n : ℤ}

theorem metByArgument_iff (hs : Text.Denotes s a) (ht : t.reference = .number (.int n)) :
    t.MetByArgument s ↔ t.MetByValue (.double (.ofInt a)) := by
  obtain ⟨d, hd, hvalue⟩ := hs.readDouble?
  generalize Double.ofInt a = nearest at hvalue ⊢
  cases t <;>
    simp [reference, Json.ofTexts] at ht <;>
    simp [MetByArgument, MetByValue, Number.Below, Number.Equals, hd, hvalue]

theorem metByValue_congr {x y : Number} (h : x.value? = y.value?) :
    t.MetByValue x ↔ t.MetByValue y := by
  cases t <;> simp [MetByValue, Number.Below, Number.Equals, h]

theorem metByValue_int (ht : t.reference = .number (.int n)) :
    t.MetByValue (.int a) ↔ t.comparator.Relates a n := by
  cases t <;>
    simp [reference, Json.ofTexts] at ht <;>
    simp [MetByValue, Number.Below, Number.Equals, comparator, Comparator.Relates, ht,
      WithBotTop.coe_injective.eq_iff, eq_comm]

theorem metByValue_of_beyond (ha : (Double.ofInt a).isFinite = false)
    (hn : (Double.ofInt n).isFinite = true) (ht : t.reference = .number (.int n)) :
    t.MetByValue (.double (.ofInt a)) ↔ t.comparator.Relates a n := by
  have hlt := Double.natAbs_lt_of_isFinite hn ha
  have hvalue := Double.value?_ofInt_of_beyond ha
  generalize Double.ofInt a = nearest at hvalue ⊢
  have hbot := Number.bot_lt_coe n
  have htop := Number.coe_lt_top n
  by_cases hneg : a < 0
  · rw [if_pos hneg] at hvalue
    cases t <;>
      simp [reference, Json.ofTexts] at ht <;>
      simp [MetByValue, Number.Below, Number.Equals, comparator, Comparator.Relates, ht, hvalue,
        hbot, hbot.ne'] <;>
      omega
  · rw [if_neg hneg] at hvalue
    cases t <;>
      simp [reference, Json.ofTexts] at ht <;>
      simp [MetByValue, Number.Below, Number.Equals, comparator, Comparator.Relates, ht, hvalue,
        htop, htop.ne] <;>
      omega

end Test

def Request.Carries (r : Request) (index : ℕ) (s : String) : Prop :=
  ∃ arguments, r.arguments = some arguments ∧ arguments[index]? = some s

namespace Condition

/-- The condition is accepted, and compares an argument with an integer. -/
structure ComparesArgument (c : Condition) (index : ℕ) (n : ℤ) : Prop where
  accepted : ∃ v, Condition.ofJson v = .ok c
  resource : ∃ spelling, c.resource = .argument spelling index
  reference : c.test.reference = .number (.int n)

/-- Conditions decide on the argument as the integer itself compares with their references. -/
def DecidesExactly (s : String) (a : ℤ) : Prop :=
  ∀ (c : Condition) (index : ℕ) (n : ℤ) (r : Request), c.ComparesArgument index n →
    r.Carries index s → (c.check r = none ↔ c.test.comparator.Relates a n)

variable {c : Condition} {index : ℕ} {n a : ℤ} {r : Request} {s : String}

theorem check_argument (hresource : ∃ spelling, c.resource = .argument spelling index)
    (hr : r.Carries index s) : c.check r = none ↔ c.test.MetByArgument s := by
  obtain ⟨spelling, hresource⟩ := hresource
  obtain ⟨arguments, harguments, hs⟩ := hr
  simp [check, hresource, harguments, hs, checkArgument_eq_none]

theorem ComparesArgument.isFinite (h : c.ComparesArgument index n) :
    (Double.ofInt n).isFinite = true := by
  obtain ⟨v, hv⟩ := h.accepted
  have htest := (wellFormed_of_ofJson hv).2
  have href := h.reference
  have hsome : (Number.int n).isFinite? = some true := by
    cases ht : c.test <;> simp_all [Test.reference, Test.WellFormed, Json.ofTexts]
  unfold Number.isFinite? at hsome
  split at hsome <;> simp_all

def asking (n : ℤ) : Condition := ⟨.argument "ARGUMENTS[0]" 0, .equalsNumber (.int n)⟩

theorem wellFormed_argument : (Resource.argument "ARGUMENTS[0]" 0).WellFormed :=
  Checked.gives_iff.mp (by decide +kernel)

theorem comparesArgument_asking (hn : (Double.ofInt n).isFinite = true) :
    (asking n).ComparesArgument 0 n where
  accepted := ⟨(asking n).toJson, ofJson_toJson
    ⟨wellFormed_argument, by simp [asking, Test.WellFormed, Number.isFinite?, hn]⟩⟩
  resource := ⟨_, rfl⟩
  reference := rfl

def requestWith (s : String) : Request := ⟨"1", .transfer, none, none, none, some [s]⟩

theorem fewBits_of_decidesExactly (hs : Text.Denotes s a) (ha : (Double.ofInt a).isFinite = true)
    (h : DecidesExactly s a) : FewBits a.natAbs := by
  have hasking := comparesArgument_asking ha
  have hcarries : (requestWith s).Carries 0 s := ⟨[s], rfl, rfl⟩
  have hpass := (h (asking a) 0 a (requestWith s) hasking hcarries).mpr rfl
  rw [check_argument hasking.resource hcarries,
    Test.metByArgument_iff hs hasking.reference] at hpass
  obtain ⟨x, hx, hx'⟩ := hpass
  exact (Double.value?_ofInt ha).mp (hx.trans hx'.symm)

/-- Conditions decide on the numeral of an integer as the nearest double compares, which is how the
integer compares just when it has few bits or is beyond all doubles. -/
theorem check_integer (hs : Text.Denotes s a) :
    (∀ (c : Condition) (index : ℕ) (n : ℤ) (r : Request), c.ComparesArgument index n →
      r.Carries index s → (c.check r = none ↔ c.test.MetByValue (.double (.ofInt a)))) ∧
    (DecidesExactly s a ↔ FewBits a.natAbs ∨ (Number.int a).isFinite? = none) := by
  have hcheck : ∀ (c : Condition) (index : ℕ) (n : ℤ) (r : Request), c.ComparesArgument index n →
      r.Carries index s → (c.check r = none ↔ c.test.MetByValue (.double (.ofInt a))) := by
    intro c index n r hc hr
    rw [check_argument hc.resource hr, Test.metByArgument_iff hs hc.reference]
  refine ⟨hcheck, ?_⟩
  cases ha : (Double.ofInt a).isFinite with
  | false =>
    have hbeyond : (Number.int a).isFinite? = none := by simp [Number.isFinite?, ha]
    have hexact : DecidesExactly s a := by
      intro c index n r hc hr
      rw [hcheck c index n r hc hr, Test.metByValue_of_beyond ha hc.isFinite hc.reference]
    exact iff_of_true hexact (Or.inr hbeyond)
  | true =>
    have hrange : (Number.int a).isFinite? ≠ none := by simp [Number.isFinite?, ha]
    simp only [hrange, or_false]
    constructor
    · exact fewBits_of_decidesExactly hs ha
    · intro hfew c index n r hc hr
      have hvalue : (Number.double (.ofInt a)).value? = (Number.int a).value? := by
        rw [Number.value?_double, Number.value?_int, Double.value?_ofInt ha]
        exact hfew
      rw [hcheck c index n r hc hr, Test.metByValue_congr hvalue, Test.metByValue_int hc.reference]

theorem check_integer_hundred : Text.Denotes "-100" (-100) ∧ DecidesExactly "-100" (-100) := by
  have htext : Text.intText (-100) = "-100" := by decide +kernel
  have hs : Text.Denotes "-100" (-100) := htext ▸ Text.denotes_intText (-100)
  exact ⟨hs, (check_integer hs).2.mpr (Or.inl (fewBits_of_lt (by decide)))⟩

/-- 2⁵³ + 1 is read as 2⁵³, so a condition that asks for it refuses it, and one that asks for less
admits it. -/
theorem check_integer_rounded : Text.Denotes "9007199254740993" 9007199254740993 ∧
    (asking 9007199254740993).ComparesArgument 0 9007199254740993 ∧
    (requestWith "9007199254740993").Carries 0 "9007199254740993" ∧
    (asking 9007199254740993).check (requestWith "9007199254740993") =
      some (.argumentFails 0 "9007199254740993" (asking 9007199254740993)) ∧
    (Condition.mk (.argument "ARGUMENTS[0]" 0) (.lessThan (.int 9007199254740993))).check
      (requestWith "9007199254740993") = none ∧
    ¬ DecidesExactly "9007199254740993" 9007199254740993 := by
  have hasking := comparesArgument_asking (n := 9007199254740993) (by decide +kernel)
  have hcarries : (requestWith "9007199254740993").Carries 0 "9007199254740993" := ⟨_, rfl, rfl⟩
  have hfails : (asking 9007199254740993).check (requestWith "9007199254740993") =
      some (.argumentFails 0 "9007199254740993" (asking 9007199254740993)) := by decide +kernel
  have htext : Text.intText 9007199254740993 = "9007199254740993" := by decide +kernel
  refine ⟨htext ▸ Text.denotes_intText 9007199254740993, hasking, hcarries, hfails,
    by decide +kernel, ?_⟩
  intro hexact
  have hpasses := (hexact _ _ _ _ hasking hcarries).mpr rfl
  rw [hfails] at hpasses
  cases hpasses

end Condition

end Allowance
