import Allowance.Text.Numeral
import Mathlib.Data.List.Basic

/-! # Numerals read back

A text of ASCII digits is read as the number that its digits denote, with any zeros at its start.
The digits of a number denote it, and none of them is a zero at the start but that of zero itself.
-/

namespace Allowance.Text

variable {c : Char} {cs ds rest : List Char} {s : String} {n : Nat}

theorem isAsciiDigit_iff : isAsciiDigit c = true ↔ 48 ≤ c.toNat ∧ c.toNat ≤ 57 := by
  have hzero : '0'.val.toNat = 48 := by decide
  have hnine : '9'.val.toNat = 57 := by decide
  simp only [isAsciiDigit, Bool.and_eq_true, decide_eq_true_eq, Char.le_def,
    UInt32.le_iff_toNat_le, hzero, hnine]
  rfl

theorem isAsciiDigit.ne (h : isAsciiDigit c = true) {d : Char} (hd : isAsciiDigit d = false) :
    c ≠ d := by
  rintro rfl
  simp [h] at hd

def Literal (c : Char) : Prop := plainChar c = c ∧ isNumeralSpace c = false ∧ c ≠ '_'

theorem literal_of_isAsciiDigit (h : isAsciiDigit c = true) : Literal c := by
  obtain ⟨hge, hle⟩ := isAsciiDigit_iff.mp h
  have hreturn : '\r'.val.toNat = 13 := by decide
  have hnot : ¬ c ≤ '\r' := by
    rw [Char.le_def, UInt32.le_iff_toNat_le, hreturn]
    change ¬ c.toNat ≤ 13
    omega
  refine ⟨?_, ?_, isAsciiDigit.ne h (by decide)⟩
  · rw [plainChar, if_pos (by omega)]
  · simp [isNumeralSpace, isAsciiDigit.ne h (d := ' ') (by decide), hnot]

theorem dropWhile_isNumeralSpace (h : ∀ c ∈ cs, Literal c) : cs.dropWhile isNumeralSpace = cs := by
  cases cs with
  | nil => rfl
  | cons c cs => simp [(h c List.mem_cons_self).2.1]

theorem numeralCore_of_literal (h : ∀ c ∈ s.toList, Literal c) : numeralCore s = s.toList := by
  have hplain : plainNumeral s = s.toList := by
    rw [plainNumeral, List.map_congr_left fun c hc => (h c hc).1, List.map_id']
  rw [numeralCore, hplain, dropWhile_isNumeralSpace h,
    dropWhile_isNumeralSpace fun c hc => h c (List.mem_reverse.mp hc), List.reverse_reverse]

theorem dropUnderscores_of_literal (h : ∀ c ∈ cs, Literal c) (afterDigit : Bool) :
    dropUnderscores afterDigit cs = some cs := by
  induction cs generalizing afterDigit with
  | nil => rfl
  | cons c cs ih =>
    have hc := (h c List.mem_cons_self).2.2
    have hcs := ih (fun d hd => h d (List.mem_cons_of_mem _ hd)) (isAsciiDigit c)
    rw [dropUnderscores, if_neg hc, hcs]
    · rfl
    · rintro d rest rfl
      exact absurd rfl hc

theorem takeSign_of_head (h : ∀ c ∈ cs.head?, isAsciiDigit c = true) :
    takeSign cs = (false, cs) := by
  unfold takeSign
  split
  · exact absurd (h _ rfl) (by decide)
  · exact absurd (h _ rfl) (by decide)
  · rfl

theorem takeSign_of_digits (h : ∀ c ∈ cs, isAsciiDigit c = true) : takeSign cs = (false, cs) :=
  takeSign_of_head fun c hc => h c (List.mem_of_mem_head? hc)

theorem readInt?_of_digits (hs : s.toList ≠ []) (h : ∀ c ∈ s.toList, isAsciiDigit c = true) :
    readInt? s =
      if maxDigits < s.toList.length then none else some (digitsValue s.toList : Int) := by
  have hnone : ¬ ∃ c ∈ s.toList, isAsciiDigit c = false := by
    rintro ⟨c, hc, hfalse⟩
    simp [h c hc] at hfalse
  have hliteral : ∀ c ∈ s.toList, Literal c := fun c hc => literal_of_isAsciiDigit (h c hc)
  simp [readInt?, numeralCore_of_literal hliteral, dropUnderscores_of_literal hliteral,
    takeSign_of_digits h, hs, hnone]

/-- The text is a numeral of an integer: digits, perhaps after a sign, however many. -/
def Denotes (s : String) (a : Int) : Prop :=
  ∃ negative ds, (dropUnderscores false (numeralCore s)).map takeSign = some (negative, ds) ∧
    ds ≠ [] ∧ (∀ c ∈ ds, isAsciiDigit c = true) ∧
    a = if negative then -(digitsValue ds : Int) else digitsValue ds

section Digits

theorem toNat_digitChar (hn : n < 10) : (digitChar n).toNat = 48 + n := by
  have hall : ∀ n < 10, (digitChar n).toNat = 48 + n := by decide
  exact hall n hn

/-- Induction along the digits of a number, the last one first. -/
theorem digits_induction {motive : Nat → Prop} (below : ∀ n < 10, motive n)
    (step : ∀ n, 10 ≤ n → motive (n / 10) → motive n) (n : Nat) : motive n := by
  induction n using Nat.strongRecOn with
  | ind n ih =>
    by_cases hn : n < 10
    · exact below n hn
    · exact step n (by omega) (ih _ (by omega))

theorem digitsBefore_of_lt (hn : n < 10) : digitsBefore n rest = digitChar n :: rest := by
  rw [digitsBefore, if_pos hn]

theorem digitsBefore_of_ge (hn : 10 ≤ n) :
    digitsBefore n rest = digitsBefore (n / 10) (digitChar (n % 10) :: rest) := by
  rw [digitsBefore, if_neg (by omega)]

theorem digitsBefore_eq_append (n : Nat) (rest : List Char) :
    digitsBefore n rest = digits n ++ rest := by
  induction n using digits_induction generalizing rest with
  | below n hn => simp [digits, digitsBefore_of_lt hn]
  | step n hn ih =>
    rw [digits, digitsBefore_of_ge hn, digitsBefore_of_ge hn, ih, ih [_], List.append_assoc]
    rfl

theorem digits_of_lt (hn : n < 10) : digits n = [digitChar n] := digitsBefore_of_lt hn

theorem digits_of_ge (hn : 10 ≤ n) : digits n = digits (n / 10) ++ [digitChar (n % 10)] := by
  rw [digits, digitsBefore_of_ge hn, digitsBefore_eq_append]

theorem isAsciiDigit_of_mem_digits (n : Nat) : ∀ c ∈ digits n, isAsciiDigit c = true := by
  have hdigit : ∀ n < 10, isAsciiDigit (digitChar n) = true := by decide
  induction n using digits_induction with
  | below n hn => simp [digits_of_lt hn, hdigit n hn]
  | step n hn ih =>
    intro c hc
    rw [digits_of_ge hn] at hc
    rcases List.mem_append.mp hc with hc | hc
    · exact ih c hc
    · obtain rfl := List.mem_singleton.mp hc
      exact hdigit _ (Nat.mod_lt _ (by decide))

theorem digits_ne_nil (n : Nat) : digits n ≠ [] := by
  by_cases hn : n < 10
  · simp [digits_of_lt hn]
  · simp [digits_of_ge (Nat.le_of_not_lt hn)]

theorem digitsValue_append_singleton :
    digitsValue (cs ++ [c]) = 10 * digitsValue cs + (c.toNat - 48) := by
  simp only [digitsValue, List.foldl_append, List.foldl_cons, List.foldl_nil]
  rfl

theorem digitsValue_digits (n : Nat) : digitsValue (digits n) = n := by
  induction n using digits_induction with
  | below n hn =>
    rw [digits_of_lt hn]
    have htoNat := toNat_digitChar hn
    have hzero : '0'.toNat = 48 := by decide
    simp [digitsValue, htoNat, hzero]
  | step n hn ih =>
    rw [digits_of_ge hn, digitsValue_append_singleton, ih,
      toNat_digitChar (Nat.mod_lt _ (by decide))]
    omega

theorem head_digits (hn : n ≠ 0) : ∃ d ds, digits n = d :: ds ∧ d ≠ '0' := by
  induction n using digits_induction with
  | below n hlt =>
    have hall : ∀ n < 10, n ≠ 0 → digitChar n ≠ '0' := by decide
    exact ⟨_, [], digits_of_lt hlt, hall n hlt hn⟩
  | step n hle ih =>
    obtain ⟨d, ds, hds, hd⟩ := ih (by omega)
    exact ⟨d, ds ++ [digitChar (n % 10)], by rw [digits_of_ge hle, hds, List.cons_append], hd⟩

theorem getLast?_digits (n : Nat) : (digits n).getLast? = some (digitChar (n % 10)) := by
  by_cases hn : n < 10
  · rw [digits_of_lt hn, List.getLast?_singleton, Nat.mod_eq_of_lt hn]
  · rw [digits_of_ge (Nat.le_of_not_lt hn), List.getLast?_concat]

theorem denotes_intText (a : Int) : Denotes (intText a) a := by
  have hdigits := isAsciiDigit_of_mem_digits a.natAbs
  have hliteral : ∀ c ∈ digits a.natAbs, Literal c := fun c hc =>
    literal_of_isAsciiDigit (hdigits c hc)
  unfold Denotes intText natText
  split
  case isTrue hneg =>
    have htoList : ("-" ++ String.ofList (digits a.natAbs)).toList = '-' :: digits a.natAbs := by
      simp
    have hminus : Literal '-' := ⟨by decide, by decide, by decide⟩
    have hsigned : ∀ c ∈ '-' :: digits a.natAbs, Literal c :=
      List.forall_mem_cons.mpr ⟨hminus, hliteral⟩
    refine ⟨true, digits a.natAbs, ?_, digits_ne_nil _, hdigits, ?_⟩
    · rw [numeralCore_of_literal (by rwa [htoList]), htoList, dropUnderscores_of_literal hsigned]
      rfl
    · rw [digitsValue_digits, if_pos rfl]
      omega
  case isFalse hneg =>
    have htoList : (String.ofList (digits a.natAbs)).toList = digits a.natAbs := by simp
    refine ⟨false, digits a.natAbs, ?_, digits_ne_nil _, hdigits, ?_⟩
    · rw [numeralCore_of_literal (by rwa [htoList]), htoList, dropUnderscores_of_literal hliteral,
        Option.map_some, takeSign_of_digits hdigits]
    · rw [digitsValue_digits, if_neg Bool.false_ne_true]
      omega

end Digits

end Allowance.Text
