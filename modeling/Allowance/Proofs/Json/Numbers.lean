import Allowance.Json.Reader
import Allowance.Json.Writer
import Allowance.Proofs.Number.Reading

/-! # Numbers read back

The reader takes the longest numeral that it finds, so where a number ends depends on what follows.
Behind a value stands a bracket, a comma, a line break or nothing, and none of these goes on with a
numeral. An integer is thus read back from its digits, unless there are too many.
-/

namespace Allowance

open Text

namespace Json

variable {c : Char} {cs rest : List Char} {half : Nat → Char} {depth fuel : Nat}

/-- Whether a value ends before these characters: a bracket, a comma, a line break or nothing. -/
def Ends (cs : List Char) : Prop := ∀ c ∈ cs.head?, c ∈ [',', ']', '\x7d', '\n']

theorem ends_nil : Ends [] := by simp [Ends]

theorem ends_cons (h : c ∈ [',', ']', '\x7d', '\n']) : Ends (c :: rest) := by
  rintro d ⟨⟩
  exact h

/-- Whether these characters can begin a value: the first one is visible, and no closing bracket. -/
def Begins (cs : List Char) : Prop :=
  ∃ c rest, cs = c :: rest ∧ 0x20 < c.toNat ∧ c.toNat < 0x7f ∧ c ≠ ']'

theorem begins_append (h : Begins cs) (rest : List Char) : Begins (cs ++ rest) := by
  obtain ⟨c, tail, rfl, hc⟩ := h
  exact ⟨c, tail ++ rest, rfl, hc⟩

section Simple

theorem takeValue_simple (hquote : c ≠ '"') (hbracket : c ≠ '[') (hbrace : c ≠ '\x7b') :
    takeValue half depth (fuel + 1) (c :: rest) = takeSimple (c :: rest) := by
  rw [takeValue]
  · simpa using hquote
  · simpa using hbracket
  · simpa using hbrace

theorem Ends.cases (h : Ends rest) : rest = [] ∨ ∃ c tail, rest = c :: tail ∧
    isAsciiDigit c = false ∧ c ≠ '.' ∧ c ≠ 'e' ∧ c ≠ 'E' := by
  cases rest with
  | nil => exact Or.inl rfl
  | cons c tail =>
    refine Or.inr ⟨c, tail, rfl, ?_⟩
    have hc := h c rfl
    simp only [List.mem_cons, List.not_mem_nil, or_false] at hc
    rcases hc with rfl | rfl | rfl | rfl <;> decide

theorem spanDigits_append {ds : List Char} (hds : ∀ c ∈ ds, isAsciiDigit c = true)
    (hrest : Ends rest) : spanDigits (ds ++ rest) = (ds, rest) := by
  refine spanDigits_of_digits hds fun c hc => ?_
  obtain rfl | ⟨d, tail, rfl, hd, -⟩ := hrest.cases
  · cases hc
  · obtain rfl : d = c := by simpa using hc
    exact hd

theorem takeWhole_digits (n : Nat) (hrest : Ends rest) :
    takeWhole (digits n ++ rest) = (digits n, rest) := by
  by_cases hn : n = 0
  · subst hn
    rw [digits_of_lt (by decide)]
    rfl
  · obtain ⟨d, ds, hds, hd⟩ := head_digits hn
    have hspan := spanDigits_append (isAsciiDigit_of_mem_digits n) hrest
    rw [hds, List.cons_append] at hspan ⊢
    rw [takeWhole, hspan]
    simpa using hd

theorem takeFraction_of_ends (h : Ends rest) : takeFraction rest = ([], rest) := by
  obtain rfl | ⟨c, tail, rfl, -, hc, -⟩ := h.cases
  · rfl
  · rw [takeFraction]
    simpa using hc

theorem takeExponent_of_ends (h : Ends rest) : takeExponent rest = (0, rest) := by
  obtain rfl | ⟨c, tail, rfl, -, -, he, hE⟩ := h.cases
  · rfl
  · simp [takeExponent, he, hE]

theorem takeNumber_digits {n : Nat} (hn : (digits n).length ≤ maxDigits) (hrest : Ends rest) :
    takeNumber (digits n ++ rest) = .ok (.int n, rest) := by
  obtain ⟨d, ds, hds⟩ := List.exists_cons_of_ne_nil (digits_ne_nil n)
  have hd : d ≠ '-' :=
    isAsciiDigit.ne (isAsciiDigit_of_mem_digits n d (by simp [hds])) (by decide)
  have hwhole := takeWhole_digits n hrest
  have hvalue := digitsValue_digits n
  rw [hds] at hwhole hvalue hn ⊢
  rw [List.cons_append] at hwhole ⊢
  simpa [takeNumber, hd, hwhole, hvalue, takeFraction_of_ends hrest, takeExponent_of_ends hrest]
    using hn

theorem takeNumber_minus {n : Nat} (hn : (digits n).length ≤ maxDigits) (hrest : Ends rest) :
    takeNumber ('-' :: (digits n ++ rest)) = .ok (.int (-n), rest) := by
  have hwhole := takeWhole_digits n hrest
  have hvalue := digitsValue_digits n
  have hne := digits_ne_nil n
  simp [takeNumber, hwhole, hvalue, hne, takeFraction_of_ends hrest, takeExponent_of_ends hrest,
    Nat.not_lt.mpr hn]

theorem takeSimple_digit (hc : isAsciiDigit c = true) :
    takeSimple (c :: cs) = takeNumber (c :: cs) := by
  have hne {d : Char} (hd : isAsciiDigit d = false) : d ≠ c := (isAsciiDigit.ne hc hd).symm
  simp [takeSimple, names, hne (d := 'n') (by decide), hne (d := 't') (by decide),
    hne (d := 'f') (by decide), hne (d := 'N') (by decide), hne (d := 'I') (by decide),
    hne (d := '-') (by decide)]

theorem takeSimple_minus (hc : isAsciiDigit c = true) :
    takeSimple ('-' :: c :: cs) = takeNumber ('-' :: c :: cs) := by
  have hne : 'I' ≠ c := (isAsciiDigit.ne hc (by decide)).symm
  simp [takeSimple, names, hne]

end Simple

end Json

namespace Number

open Json

structure Legible (n : Number) : Prop where
  begins : Begins (writtenNumber n).toList
  taken {half : Nat → Char} {depth fuel : Nat} {rest : List Char} (hrest : Ends rest) :
    takeValue half depth (fuel + 1) ((writtenNumber n).toList ++ rest) = .ok (.number n, rest)

theorem legible_int {i : Int} (hi : (digits i.natAbs).length ≤ maxDigits) :
    (Number.int i).Legible := by
  obtain ⟨d, ds, hds⟩ := List.exists_cons_of_ne_nil (digits_ne_nil i.natAbs)
  have hd := isAsciiDigit_of_mem_digits i.natAbs d (by simp [hds])
  by_cases hsign : i < 0
  · have hvalue : -(i.natAbs : Int) = i := by omega
    have htext : (writtenNumber (.int i)).toList = '-' :: digits i.natAbs := by
      simp [writtenNumber, text, intText, natText, hsign]
    refine ⟨⟨'-', _, htext, by decide⟩, fun hrest => ?_⟩
    rw [htext, List.cons_append, takeValue_simple (by decide) (by decide) (by decide), hds,
      List.cons_append, takeSimple_minus hd, ← List.cons_append, ← hds, takeNumber_minus hi hrest,
      hvalue]
    rfl
  · have hvalue : (i.natAbs : Int) = i := by omega
    have htext : (writtenNumber (.int i)).toList = digits i.natAbs := by
      simp [writtenNumber, text, intText, natText, hsign]
    have hbounds := isAsciiDigit_iff.mp hd
    have hne {e : Char} (he : isAsciiDigit e = false) : d ≠ e := isAsciiDigit.ne hd he
    refine ⟨⟨d, ds, htext.trans hds, by omega, by omega, hne (by decide)⟩, fun hrest => ?_⟩
    rw [htext, hds, List.cons_append, takeValue_simple (hne (by decide)) (hne (by decide))
      (hne (by decide)), takeSimple_digit hd, ← List.cons_append, ← hds, takeNumber_digits hi hrest,
      hvalue]
    rfl

end Number

end Allowance
