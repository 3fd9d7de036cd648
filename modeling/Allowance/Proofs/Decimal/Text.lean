import Allowance.Decimal.Text
import Allowance.Proofs.Decimal.Alignment
import Allowance.Proofs.Number.Reading
import Mathlib.Data.List.Induction

/-! # Decimals written and read back

A decimal without zeros at the end of its coefficient is written as a plain numeral: digits, and
behind a point more digits of which the last is not zero. A numeral without an exponent is read as
what its digits denote, so the text of a decimal is read as a decimal of the same magnitude.
-/

namespace Allowance

namespace Text

variable {cs ds : List Char} {n : ℕ}

/-- The text is a numeral without an exponent, and without zeros at its ends that it could do
without. -/
def Plain (s : String) : Prop :=
  ∃ whole fraction, Fixed s.toList whole fraction ∧ (whole.head? = some '0' → whole = ['0']) ∧
    fraction.getLast? ≠ some '0'

theorem digitsValue_append (cs ds : List Char) :
    digitsValue (cs ++ ds) = digitsValue cs * tenTo ds.length + digitsValue ds := by
  induction ds using List.reverseRecOn with
  | nil => simp [digitsValue, tenTo]
  | append_singleton ds d ih =>
    have hten : tenTo (ds.length + 1) = tenTo ds.length * 10 := tenTo_add _ _
    rw [← List.append_assoc, digitsValue_append_singleton, digitsValue_append_singleton, ih,
      List.length_append, List.length_singleton, hten]
    ring

theorem digitsValue_zeros (n : ℕ) : digitsValue (List.replicate n '0') = 0 := by
  induction n with
  | zero => rfl
  | succ n ih =>
    rw [List.replicate_succ', digitsValue_append_singleton, ih]
    rfl

theorem digitsValue_lt (h : ∀ c ∈ ds, isAsciiDigit c = true) :
    digitsValue ds < tenTo ds.length := by
  induction ds using List.reverseRecOn with
  | nil => exact tenTo_pos 0
  | append_singleton ds d ih =>
    have hten : tenTo (ds.length + 1) = tenTo ds.length * 10 := tenTo_add _ _
    have hd := isAsciiDigit_iff.mp (h d (by simp))
    have := ih fun c hc => h c (List.mem_append_left _ hc)
    rw [digitsValue_append_singleton, List.length_append, List.length_singleton, hten]
    omega

theorem digitChar_ne_zero (hn : n < 10) (h : n ≠ 0) : digitChar n ≠ '0' := by
  have hall : ∀ n < 10, n ≠ 0 → digitChar n ≠ '0' := by decide
  exact hall n hn h

end Text

namespace Decimal

open Text

variable {c : ℕ} {e ideal : ℤ} {s : String} {whole fraction : List Char}

section Reading

def IsNumeralChar (c : Char) : Prop := isAsciiDigit c = true ∨ c = '.'

theorem isNumeralChar_of_fixed {cs : List Char} (h : Fixed cs whole fraction) :
    ∀ c ∈ cs, IsNumeralChar c := by
  intro c hc
  have hdigits := h.digits
  rw [h.text] at hc
  split at hc
  · exact Or.inl (hdigits c (List.mem_append_left _ hc))
  · simp only [List.mem_append, List.mem_cons] at hc hdigits
    rcases hc with hc | rfl | hc
    · exact Or.inl (hdigits c (Or.inl hc))
    · exact Or.inr rfl
    · exact Or.inl (hdigits c (Or.inr hc))

theorem IsNumeralChar.bounds {c : Char} (h : IsNumeralChar c) : 46 ≤ c.toNat ∧ c.toNat ≤ 57 := by
  rcases h with h | rfl
  · have := isAsciiDigit_iff.mp h
    omega
  · decide

theorem IsNumeralChar.isBlank {c : Char} (h : IsNumeralChar c) : isBlank c = false := by
  have := h.bounds
  simp [Text.isBlank]
  omega

theorem dropWhile_isBlank {cs : List Char} (h : ∀ c ∈ cs, IsNumeralChar c) :
    cs.dropWhile isBlank = cs := by
  cases cs with
  | nil => rfl
  | cons c cs => simp [(h c List.mem_cons_self).isBlank]

theorem trim_eq_self {cs : List Char} (h : ∀ c ∈ cs, IsNumeralChar c) : trim cs = cs := by
  have hreverse : ∀ c ∈ cs.reverse, IsNumeralChar c := fun c hc => h c (List.mem_reverse.mp hc)
  rw [trim, trimLeft, trimLeft, dropWhile_isBlank h, dropWhile_isBlank hreverse,
    List.reverse_reverse]

theorem plainDecimal?_eq (h : ∀ c ∈ s.toList, IsNumeralChar c) :
    plainDecimal? s = some s.toList := by
  have hunderscore : s.toList.filter (· != '_') = s.toList := by
    refine List.filter_eq_self.mpr fun c hc => ?_
    have hbounds := (h c hc).bounds
    simp only [bne_iff_ne]
    rintro rfl
    exact absurd hbounds.2 (by decide)
  rw [plainDecimal?, trim_eq_self h, hunderscore]
  generalize s.toList = cs at h
  induction cs with
  | nil => rfl
  | cons c cs ih =>
    have hbounds := (h c List.mem_cons_self).bounds
    have hascii : c.toNat < 0x80 := by omega
    rw [List.mapM_cons, ih fun d hd => h d (List.mem_cons_of_mem _ hd)]
    simp [hascii]

theorem readNan?_of_head {cs : List Char} (h : ∀ c ∈ cs.head?, isAsciiDigit c = true) :
    readNan? (cs.map Char.toLower) = none := by
  cases hlower : cs.map Char.toLower with
  | nil => rfl
  | cons c rest =>
    have hn : 'n' ≠ c := by
      rintro rfl
      exact map_toLower_ne h (by decide) hlower
    have hs : 's' ≠ c := by
      rintro rfl
      exact map_toLower_ne h (by decide) hlower
    simp [readNan?, hn, hs]

theorem read?_of_fixed (h : Fixed s.toList whole fraction)
    (hlength : ((whole ++ fraction).length : ℤ) ≤ maxReadExponent) :
    read? s = some (.finite false (digitsValue (whole ++ fraction)) (-fraction.length)) := by
  have hinf : s.toList.map Char.toLower ≠ "inf".toList := map_toLower_ne h.head (by decide)
  have hinfinity : s.toList.map Char.toLower ≠ "infinity".toList :=
    map_toLower_ne h.head (by decide)
  -- The exponent of the first digit is not too large, nor that of the last one too small.
  have hfirst : (if digitsValue (whole ++ fraction) = 0 then (-fraction.length : ℤ)
      else -fraction.length + digitCount (digitsValue (whole ++ fraction)) - 1) ≤
        maxReadExponent := by
    split
    · omega
    · rename_i hne
      have := (digitCount_le_iff hne).mpr (digitsValue_lt h.digits)
      omega
  have hlast : minReadExponent ≤ -fraction.length := by
    rw [List.length_append] at hlength
    have : maxReadExponent ≤ -minReadExponent := by decide
    omega
  rw [read?, plainDecimal?_eq (isNumeralChar_of_fixed h), Option.bind_eq_bind, Option.bind_some,
    takeSign_of_head h.head]
  simp only [hinf, hinfinity, decide_false, Bool.or_self, readNan?_of_head h.head, h.takeDecimal?,
    Option.bind_eq_bind, Option.bind_some, TakenDecimal.scaled, zero_sub]
  rw [if_neg Bool.false_ne_true, if_neg]
  simpa using ⟨hfirst, hlast⟩

end Reading

section Writing

def figures (c : ℕ) (e : ℤ) : List Char :=
  List.replicate ((-e).toNat + 1 - (digitCount c + e.toNat)) '0' ++
    (digits c ++ List.replicate e.toNat '0')

def wholeCount (c : ℕ) (e : ℤ) : ℕ := (figures c e).length - (-e).toNat

theorem length_figures (c : ℕ) (e : ℤ) :
    (figures c e).length = max ((-e).toNat + 1) (digitCount c + e.toNat) := by
  simp only [figures, List.length_append, List.length_replicate]
  rw [digitCount]
  omega

theorem isAsciiDigit_of_mem_figures : ∀ d ∈ figures c e, isAsciiDigit d = true := by
  intro d hd
  simp only [figures, List.mem_append] at hd
  rcases hd with hd | hd | hd
  · rw [List.eq_of_mem_replicate hd]
    decide
  · exact isAsciiDigit_of_mem_digits c d hd
  · rw [List.eq_of_mem_replicate hd]
    decide

theorem digitsValue_figures (c : ℕ) (e : ℤ) : digitsValue (figures c e) = c * tenTo e.toNat := by
  rw [figures, digitsValue_append, digitsValue_append, digitsValue_zeros, digitsValue_zeros,
    digitsValue_digits, List.length_replicate, Nat.zero_mul, Nat.zero_add, Nat.add_zero]

theorem length_drop_figures (c : ℕ) (e : ℤ) :
    ((figures c e).drop (wholeCount c e)).length = (-e).toNat := by
  have := length_figures c e
  rw [List.length_drop, wholeCount]
  omega

theorem toList_text (c : ℕ) (e : ℤ) : (text (.finite false c e)).toList =
    if (-e).toNat = 0 then digits c ++ List.replicate e.toNat '0'
    else (figures c e).take (wholeCount c e) ++ '.' :: (figures c e).drop (wholeCount c e) := by
  simp [text, figures, wholeCount, digitCount]

theorem fixed_text (c : ℕ) (e : ℤ) : Fixed (text (.finite false c e)).toList
    ((figures c e).take (wholeCount c e)) ((figures c e).drop (wholeCount c e)) where
  whole_ne_nil := by
    have := length_figures c e
    rw [← List.length_pos_iff, List.length_take, wholeCount]
    omega
  digits := by
    rw [List.take_append_drop]
    exact isAsciiDigit_of_mem_figures
  text := by
    have hdrop := length_drop_figures c e
    rw [toList_text]
    by_cases hplaces : (-e).toNat = 0
    · have hnil := List.length_eq_zero_iff.mp (hdrop.trans hplaces)
      have hcount := List.length_pos_iff.mpr (digits_ne_nil c)
      have hpad : (-e).toNat + 1 - (digitCount c + e.toNat) = 0 := by
        rw [digitCount]
        omega
      rw [if_pos hplaces, if_pos hnil, wholeCount, hplaces, Nat.sub_zero, List.take_length, figures,
        hpad, List.replicate_zero, List.nil_append]
    · rw [if_neg hplaces, if_neg]
      rw [← List.length_eq_zero_iff, hdrop]
      exact hplaces

/-- No zero is at the end of the coefficient, and zero is written without an exponent. -/
def Reduced (c : ℕ) (e : ℤ) : Prop := c % 10 ≠ 0 ∨ c = 0 ∧ e = 0

theorem Reduced.head?_take (h : Reduced c e)
    (hzero : ((figures c e).take (wholeCount c e)).head? = some '0') :
    (figures c e).take (wholeCount c e) = ['0'] := by
  have hlength := length_figures c e
  rcases lt_or_ge (-e).toNat (digitCount c + e.toNat) with hlt | hge
  · rcases h with h | ⟨rfl, rfl⟩
    · have hpad : (-e).toNat + 1 - (digitCount c + e.toNat) = 0 := by omega
      obtain ⟨d, ds, hds, hd⟩ := head_digits (n := c) (by omega)
      have hcount : wholeCount c e ≠ 0 := by
        rw [wholeCount]
        omega
      rw [List.head?_take, if_neg hcount, figures, hpad, hds] at hzero
      exact absurd (Option.some.inj hzero) hd
    · simp [figures, wholeCount, digitCount, Text.digits_of_lt, Text.digitChar]
  · have hone : ((figures c e).take (wholeCount c e)).length = 1 := by
      rw [List.length_take, wholeCount]
      omega
    obtain ⟨d, hd⟩ := List.length_eq_one_iff.mp hone
    rw [hd] at hzero ⊢
    rw [Option.some.inj hzero]

theorem Reduced.getLast?_drop (h : Reduced c e) :
    ((figures c e).drop (wholeCount c e)).getLast? ≠ some '0' := by
  have hlength := length_figures c e
  rw [List.getLast?_drop]
  split
  · simp
  · rename_i hlt
    rw [wholeCount] at hlt
    have hzeros : e.toNat = 0 := by omega
    have hc : c % 10 ≠ 0 := by
      rcases h with h | ⟨-, rfl⟩
      · exact h
      · simp at hlt
    rw [figures, hzeros, List.replicate_zero, List.append_nil,
      List.getLast?_append_of_ne_nil _ (digits_ne_nil c), getLast?_digits]
    simpa using digitChar_ne_zero (Nat.mod_lt _ (by decide)) hc

theorem Reduced.plain (h : Reduced c e) : Plain (text (.finite false c e)) :=
  ⟨_, _, fixed_text c e, h.head?_take, h.getLast?_drop⟩

/-- The text of a decimal is read as a decimal of the same magnitude. -/
theorem read?_text
    (hlength : (max ((-e).toNat + 1) (digitCount c + e.toNat) : ℤ) ≤ maxReadExponent) :
    ∃ c' e', read? (text (.finite false c e)) = some (.finite false c' e') ∧
      magnitude c' e' = magnitude c e := by
  have hread := read?_of_fixed (fixed_text c e) (by
    rw [List.take_append_drop, length_figures]
    exact_mod_cast hlength)
  rw [List.take_append_drop, digitsValue_figures, length_drop_figures] at hread
  have hexponent : -((-e).toNat : ℤ) + e.toNat = e := by omega
  refine ⟨_, _, hread, ?_⟩
  rw [magnitude_mul_tenTo, hexponent]

end Writing

section Reducing

variable {fuel : ℕ}

theorem reduceTo_spec (hc : c ≠ 0) (hfuel : c < tenTo fuel) (hideal : e + fuel ≤ ideal) :
    (reduceTo ideal fuel c e).1 % 10 ≠ 0 ∧ (reduceTo ideal fuel c e).1 ≤ c ∧
      e ≤ (reduceTo ideal fuel c e).2 ∧ (reduceTo ideal fuel c e).2 ≤ e + fuel := by
  induction fuel generalizing c e with
  | zero => exact absurd (Nat.lt_one_iff.mp hfuel) hc
  | succ fuel ih =>
    have hten : tenTo (fuel + 1) = tenTo fuel * 10 := tenTo_add _ _
    rw [reduceTo]
    by_cases hzero : c % 10 = 0
    · have hstep : (decide (e < ideal) && c != 0 && c % 10 == 0) = true := by
        simp [hc, hzero]
        omega
      obtain ⟨hlast, hle, hlow, hhigh⟩ :=
        ih (c := c / 10) (e := e + 1) (by omega) (by omega) (by omega)
      rw [if_pos hstep]
      exact ⟨hlast, by omega, by omega, by omega⟩
    · rw [if_neg (by simp [hzero])]
      exact ⟨hzero, le_rfl, le_rfl, by omega⟩

theorem exists_reduced (negative : Bool) (h : e + digitCount c ≤ maxExponent) : ∃ c' e',
    reduce (.finite negative c e) = .finite negative c' e' ∧ Reduced c' e' ∧
      magnitude c' e' = magnitude c e ∧ c' ≤ c ∧ min e 0 ≤ e' ∧ e' ≤ max 0 (e + digitCount c) := by
  rw [reduce]
  rcases eq_or_ne c 0 with rfl | hc
  · refine ⟨0, 0, if_pos rfl, Or.inr ⟨rfl, rfl⟩, ?_, le_rfl, min_le_right e 0, le_max_left 0 _⟩
    rw [magnitude_zero, magnitude_zero]
  · obtain ⟨hlast, hle, hlow, hhigh⟩ := reduceTo_spec hc (lt_tenTo_digitCount c) h
    exact ⟨_, _, if_neg hc, Or.inl hlast, magnitude_reduceTo _ _ c e, hle, by omega, by omega⟩

/-- How many digits are kept, the range of exponents, and the largest one that is read. -/
theorem limits : precision = 28 ∧ minExponent = -1000026 ∧ maxExponent = 999999 ∧
    maxReadExponent = 999999999999999999 := ⟨rfl, rfl, rfl, rfl⟩

/-- Without the zeros at its end a decimal is written plainly, and its text is read as a decimal of
its magnitude. -/
theorem text_reduce (hlow : minExponent ≤ e) (hhigh : e + digitCount c ≤ maxExponent) :
    Plain (reduce (.finite false c e)).text ∧
      ∃ c' e', read? (reduce (.finite false c e)).text = some (.finite false c' e') ∧
        magnitude c' e' = magnitude c e := by
  obtain ⟨c', e', hreduce, hreduced, hmagnitude, hle, hlow', hhigh'⟩ := exists_reduced false hhigh
  have hcount : digitCount c' ≤ digitCount c + 1 :=
    digitCount_le (Nat.succ_pos _) (hle.trans_lt ((lt_tenTo_digitCount c).trans
      (tenTo_lt_tenTo.mpr (Nat.lt_succ_self _))))
  have hlimits := limits
  obtain ⟨c'', e'', hread, hmagnitude'⟩ := read?_text (c := c') (e := e') (by omega)
  rw [hreduce]
  exact ⟨hreduced.plain, c'', e'', hread, hmagnitude'.trans hmagnitude⟩

end Reducing

end Decimal

end Allowance
