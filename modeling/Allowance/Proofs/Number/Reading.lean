import Allowance.Number.Reading
import Allowance.Proofs.Text.Numeral
import Mathlib.Data.List.TakeDrop

/-! # Decimals taken from a text

A decimal without an exponent is taken whole, its digits before the point and those after it. What
begins with a digit is no name of an infinity or of what is no number.
-/

namespace Allowance.Text

variable {c d : Char} {cs ds rest whole fraction name : List Char}

/-- The digits before the point and those after it make up the text. Where there are none after it,
there is no point either. -/
structure Fixed (cs whole fraction : List Char) : Prop where
  whole_ne_nil : whole ≠ []
  digits : ∀ c ∈ whole ++ fraction, isAsciiDigit c = true
  text : cs = if fraction = [] then whole else whole ++ '.' :: fraction

theorem Fixed.head (h : Fixed cs whole fraction) : ∀ c ∈ cs.head?, isAsciiDigit c = true := by
  intro c hc
  obtain ⟨d, ds, rfl⟩ := List.exists_cons_of_ne_nil h.whole_ne_nil
  have hfirst : cs.head? = some d := by
    rw [h.text]
    split <;> rfl
  obtain rfl : d = c := Option.some.inj (hfirst.symm.trans hc)
  exact h.digits d (by simp)

theorem spanDigits_of_digits (hds : ∀ c ∈ ds, isAsciiDigit c = true)
    (hrest : ∀ c ∈ rest.head?, isAsciiDigit c = false) : spanDigits (ds ++ rest) = (ds, rest) := by
  rw [spanDigits, List.span_eq_takeWhile_dropWhile, List.takeWhile_append_of_pos hds,
    List.dropWhile_append_of_pos hds]
  cases rest with
  | nil => simp
  | cons c tail => simp [hrest c rfl]

theorem spanDigits_self (hds : ∀ c ∈ ds, isAsciiDigit c = true) : spanDigits ds = (ds, []) := by
  have hspan : spanDigits (ds ++ []) = (ds, []) := spanDigits_of_digits hds nofun
  rwa [List.append_nil] at hspan

theorem Fixed.takeDecimal? (h : Fixed cs whole fraction) :
    takeDecimal? cs = some ⟨whole, fraction, 0, []⟩ := by
  have hwhole : ∀ c ∈ whole, isAsciiDigit c = true :=
    fun c hc => h.digits c (List.mem_append_left _ hc)
  have hfraction : ∀ c ∈ fraction, isAsciiDigit c = true :=
    fun c hc => h.digits c (List.mem_append_right _ hc)
  have hne := h.whole_ne_nil
  rw [h.text]
  split
  case isTrue hnone =>
    simp [Text.takeDecimal?, spanDigits_self hwhole, takeExponent, hnone, hne]
  case isFalse hsome =>
    have hpoint : ∀ c ∈ ('.' :: fraction).head?, isAsciiDigit c = false := by
      rintro _ ⟨⟩
      decide
    simp [Text.takeDecimal?, spanDigits_of_digits hwhole hpoint, spanDigits_self hfraction,
      takeExponent, hne]

theorem takeDecimal?_of_digits (hds : ds ≠ []) (h : ∀ c ∈ ds, isAsciiDigit c = true) :
    takeDecimal? ds = some ⟨ds, [], 0, []⟩ :=
  Fixed.takeDecimal? ⟨hds, by simpa using h, rfl⟩

section Names

theorem toLower_of_isAsciiDigit (h : isAsciiDigit c = true) : c.toLower = c := by
  have hle := (isAsciiDigit_iff.mp h).2
  have hupper : 'A'.val.toNat = 65 := by decide
  refine dif_neg fun hc => ?_
  have hge : 'A'.val.toNat ≤ c.val.toNat := UInt32.le_iff_toNat_le.mp hc.1
  change c.val.toNat ≤ 57 at hle
  omega

theorem map_toLower_ne (h : ∀ c ∈ cs.head?, isAsciiDigit c = true) (hd : isAsciiDigit d = false) :
    cs.map Char.toLower ≠ d :: name := by
  cases cs with
  | nil => simp
  | cons c rest =>
    have hc := h c rfl
    rw [List.map_cons, toLower_of_isAsciiDigit hc]
    rintro ⟨⟩
    simp [hc] at hd

end Names

end Allowance.Text
