import Allowance.Json.Reader
import Allowance.Json.Writer
import Mathlib.Data.List.Basic

/-! # Texts read back

A text is written in ASCII alone, yet the reader finds every character again: the escape of a
character denotes that character. A character beyond the first plane takes two escapes, which are
read as a pair.
-/

namespace Allowance.Json

open Text

variable {c : Char} {rest : List Char} {half : Nat → Char} {n opening fuel : Nat}

section Units

theorem hexValue?_hexDigit (hn : n < 16) : hexValue? (hexDigit n) = some n := by
  have hall : ∀ n < 16, hexValue? (hexDigit n) = some n := by decide
  exact hall n hn

theorem hexUnit?_hexDigits (hn : n < 0x10000) :
    hexUnit? (hexDigit (n / 4096 % 16)) (hexDigit (n / 256 % 16)) (hexDigit (n / 16 % 16))
      (hexDigit (n % 16)) = some n := by
  have hmod (m : Nat) : m % 16 < 16 := Nat.mod_lt _ (by decide)
  simp only [hexUnit?, hexValue?_hexDigit (hmod _), Option.bind_eq_bind, Option.bind_some,
    Option.pure_def, Option.some.injEq]
  omega

theorem hexDigits_four (n : Nat) : hexDigits 4 n =
    [hexDigit (n / 4096 % 16), hexDigit (n / 256 % 16), hexDigit (n / 16 % 16),
      hexDigit (n % 16)] := by
  simp [hexDigits, List.range_succ]

theorem takeUnit_hexDigits (hn : n < 0x10000) (hrest : rest ≠ []) :
    takeUnit (hexDigits 4 n ++ rest) = .ok (n, rest) := by
  obtain ⟨next, after, rfl⟩ := List.exists_cons_of_ne_nil hrest
  simp only [hexDigits_four, List.cons_append, List.nil_append, takeUnit, hexUnit?_hexDigits hn]

theorem takeSecond_unitEscape (hn : n < 0x10000) (hrest : rest ≠ []) :
    takeSecond (unitEscape n ++ rest) = .ok (some n, rest) := by
  have hlength : ¬ (hexDigits 4 n ++ rest).length < 5 := by
    have := List.length_pos_iff.mpr hrest
    simp only [hexDigits_four, List.length_append, List.length_cons, List.length_nil]
    omega
  rw [unitEscape, List.cons_append, List.cons_append, takeSecond, if_neg hlength,
    takeUnit_hexDigits hn hrest]
  rfl

/-- No character is half of a pair, and all lie in seventeen planes. -/
theorem valid_toNat (c : Char) : c.toNat < 0xd800 ∨ 0xe000 ≤ c.toNat ∧ c.toNat < 0x110000 := by
  have h := c.valid
  simp only [UInt32.isValidChar, Nat.isValidChar] at h
  change c.val.toNat < _ ∨ _ ≤ c.val.toNat ∧ c.val.toNat < _
  omega

theorem takeUnicode_single (hc : c.toNat < 0x10000) (hrest : rest ≠ []) :
    takeUnicode half (hexDigits 4 c.toNat ++ rest) = .ok (c, rest) := by
  have hvalid := valid_toNat c
  have hhigh : ¬ (0xd800 ≤ c.toNat ∧ c.toNat < 0xdc00) := by omega
  have hhalf : ¬ (0xd800 ≤ c.toNat ∧ c.toNat < 0xe000) := by omega
  simp [takeUnicode, takeUnit_hexDigits hc hrest, hhigh, unitChar, hhalf, Char.ofNat_toNat]

theorem pairChar?_units (hc : 0x10000 ≤ c.toNat) :
    pairChar? (0xd800 + (c.toNat - 0x10000) / 0x400) (0xdc00 + (c.toNat - 0x10000) % 0x400) =
      some c := by
  have hvalid := valid_toNat c
  have hsum : 0x10000 + (0xd800 + (c.toNat - 0x10000) / 0x400 - 0xd800) * 0x400 +
      (0xdc00 + (c.toNat - 0x10000) % 0x400 - 0xdc00) = c.toNat := by omega
  have hunits : 0xd800 + (c.toNat - 0x10000) / 0x400 < 0xdc00 ∧
      0xdc00 + (c.toNat - 0x10000) % 0x400 < 0xe000 := by omega
  rw [pairChar?, hsum, Char.ofNat_toNat, if_pos (by simp [hunits])]

theorem takeUnicode_pair {high low : Nat} (hhigh : 0xd800 ≤ high ∧ high < 0xdc00)
    (hlow : low < 0x10000) (hpair : pairChar? high low = some c) (hrest : rest ≠ []) :
    takeUnicode half (hexDigits 4 high ++ (unitEscape low ++ rest)) = .ok (c, rest) := by
  have hsecond : unitEscape low ++ rest ≠ [] := by simp [unitEscape]
  have hfirst := takeUnit_hexDigits (show high < 0x10000 by omega) hsecond
  simp only [takeUnicode, hfirst, takeSecond_unitEscape hlow hrest, hhigh, Option.bind_some, hpair,
    decide_true, Bool.and_self, if_true]

end Units

section Escapes

variable {seen : List Char}

theorem takeTextFrom_letter {letter : Char} (hletter : escapeLetter? letter = some c) :
    takeTextFrom half opening (fuel + 1) seen ('\\' :: letter :: rest) =
      takeTextFrom half opening fuel (c :: seen) rest := by
  have hu : letter ≠ 'u' := by
    rintro rfl
    cases hletter
  rw [takeTextFrom, hletter]
  simpa using hu

theorem takeTextFrom_plain (hquote : c ≠ '"') (hslash : c ≠ '\\') (hc : 0x20 ≤ c.toNat) :
    takeTextFrom half opening (fuel + 1) seen (c :: rest) =
      takeTextFrom half opening fuel (c :: seen) rest := by
  rw [takeTextFrom, if_neg (by omega)]
  · simpa using hquote
  · simp [hslash]
  · simp [hslash]
  · simp [hslash]

theorem takeTextFrom_unicode {after : List Char} (h : takeUnicode half rest = .ok (c, after)) :
    takeTextFrom half opening (fuel + 1) seen ('\\' :: 'u' :: rest) =
      takeTextFrom half opening fuel (c :: seen) after := by
  rw [takeTextFrom, h]

theorem takeTextFrom_escapedChar (hrest : rest ≠ []) :
    takeTextFrom half opening (fuel + 1) seen (escapedChar c ++ rest) =
      takeTextFrom half opening fuel (c :: seen) rest := by
  unfold escapedChar
  split
  · rename_i hc
    apply takeTextFrom_letter
    simp_all [escapeLetter?]
  split
  · subst c
    exact takeTextFrom_letter rfl
  split
  · subst c
    exact takeTextFrom_letter rfl
  split
  · subst c
    exact takeTextFrom_letter rfl
  split
  · subst c
    exact takeTextFrom_letter rfl
  split
  · subst c
    exact takeTextFrom_letter rfl
  rename_i hquote _ _ _ _ _
  obtain ⟨hquote, hslash⟩ : c ≠ '"' ∧ c ≠ '\\' := by simpa using hquote
  split
  · rename_i hc
    obtain ⟨hc, -⟩ : 0x20 ≤ c.toNat ∧ c.toNat < 0x7f := by simpa using hc
    exact takeTextFrom_plain hquote hslash hc
  split
  · rename_i hc
    exact takeTextFrom_unicode (takeUnicode_single hc hrest)
  · rename_i hc
    have hvalid := valid_toNat c
    rw [List.append_assoc]
    exact takeTextFrom_unicode
      (takeUnicode_pair (by omega) (by omega) (pairChar?_units (by omega)) hrest)

theorem takeTextFrom_flatMap (cs : List Char) (hfuel : cs.length < fuel) :
    takeTextFrom half opening fuel seen (cs.flatMap escapedChar ++ '"' :: rest) =
      .ok (String.ofList (seen.reverse ++ cs), rest) := by
  induction cs generalizing seen fuel with
  | nil =>
    obtain ⟨fuel, rfl⟩ := Nat.exists_eq_succ_of_ne_zero (Nat.ne_zero_of_lt hfuel)
    simp [takeTextFrom]
  | cons c cs ih =>
    obtain ⟨fuel, rfl⟩ := Nat.exists_eq_succ_of_ne_zero (Nat.ne_zero_of_lt hfuel)
    rw [List.flatMap_cons, List.append_assoc, takeTextFrom_escapedChar (by simp),
      ih (Nat.lt_of_succ_lt_succ hfuel)]
    simp

theorem length_le_flatMap (cs : List Char) : cs.length ≤ (cs.flatMap escapedChar).length := by
  have hpos (c : Char) : 0 < (escapedChar c).length := by
    unfold escapedChar
    repeat' split
    all_goals simp [unitEscape]
  induction cs with
  | nil => exact Nat.le_refl 0
  | cons c cs ih =>
    have := hpos c
    simp only [List.flatMap_cons, List.length_append, List.length_cons]
    omega

theorem toList_writtenText (s : String) :
    (writtenText s).toList = '"' :: (s.toList.flatMap escapedChar ++ ['"']) := by
  rw [writtenText, String.toList_ofList, List.cons_append]

/-- A text is read back from what stands after its opening quote. -/
theorem takeText_escaped (s : String) (rest : List Char) :
    takeText half (s.toList.flatMap escapedChar ++ '"' :: rest) = .ok (s, rest) := by
  have hlength := length_le_flatMap s.toList
  rw [takeText, takeTextFrom_flatMap]
  · rw [List.reverse_nil, List.nil_append, String.ofList_toList]
  · simp only [List.length_append]
    omega

end Escapes

end Allowance.Json
