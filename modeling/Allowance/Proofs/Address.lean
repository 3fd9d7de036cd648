import Allowance.Address

/-! # Keys of addresses

An address is written in ASCII, so its key is the address with every letter made small. The key is
an address itself, and its own key. A text that is no address has an address as its key only if its
second character is a capital X.
-/

namespace Allowance

theorem Text.lowercaseFrom_ascii (seen : List Char) {cs : List Char}
    (h : ∀ c ∈ cs, c.toNat < 0x80) :
    lowercaseFrom seen cs = cs.map Char.toLower := by
  induction cs generalizing seen with
  | nil => rfl
  | cons c cs ih =>
    have hc := h c List.mem_cons_self
    have hcs := ih (c :: seen) fun d hd => h d (List.mem_cons_of_mem _ hd)
    simp [lowercaseFrom, hc, hcs]

theorem Text.toNat_ofNat {n : Nat} (h : n.isValidChar) : (Char.ofNat n).toNat = n := by
  rw [Char.ofNat, dif_pos h]
  exact UInt32.toNat_ofNatLT

namespace Address

variable {s : String} {c : Char}

theorem isHexDigit_ascii (h : isHexDigit c = true) : c.toNat < 0x80 := by
  simp only [isHexDigit, Bool.or_eq_true, Bool.and_eq_true, decide_eq_true_eq, Char.le_def,
    UInt32.le_iff_toNat_le] at h
  have hz : '9'.val.toNat = 57 ∧ 'f'.val.toNat = 102 ∧ 'F'.val.toNat = 70 := by decide
  change c.val.toNat < 128
  omega

theorem of_ascii {P : Char → Prop} (h : c.toNat < 0x80) (hall : ∀ n < 0x80, P (Char.ofNat n)) :
    P c := by
  have hc := hall c.toNat h
  rwa [Char.ofNat_toNat] at hc

theorem isHexDigit_toLower (h : isHexDigit c = true) :
    isHexDigit c.toLower = true ∧ c.toLower.toLower = c.toLower := by
  refine of_ascii (P := fun c => isHexDigit c = true → isHexDigit c.toLower = true ∧
    c.toLower.toLower = c.toLower) (isHexDigit_ascii h) ?_ h
  decide

theorem isAddress_iff : isAddress s = true ↔
    ∃ ds, s.toList = '0' :: 'x' :: ds ∧ ds.length = digitCount ∧ ∀ c ∈ ds, isHexDigit c = true := by
  unfold isAddress
  split
  · rename_i ds hs
    simp [hs]
  · rename_i hs
    simp only [Bool.false_eq_true, false_iff]
    rintro ⟨ds, h, _⟩
    exact hs ds h

theorem toList_key (h : isAddress s = true) : (key s).toList = s.toList.map Char.toLower := by
  obtain ⟨ds, hs, _, hd⟩ := isAddress_iff.mp h
  have hascii : ∀ c ∈ s.toList, c.toNat < 0x80 := by
    intro c hc
    rw [hs] at hc
    rcases List.mem_cons.mp hc with rfl | hc
    · decide
    rcases List.mem_cons.mp hc with rfl | hc
    · decide
    · exact isHexDigit_ascii (hd c hc)
  rw [key, Text.lowercase, String.toList_ofList, Text.lowercaseFrom_ascii [] hascii]

theorem isAddress_key (h : isAddress s = true) : isAddress (key s) = true := by
  obtain ⟨ds, hs, hl, hd⟩ := isAddress_iff.mp h
  refine isAddress_iff.mpr ⟨ds.map Char.toLower, ?_, by simpa using hl, ?_⟩
  · rw [toList_key h, hs]; rfl
  · intro c hc
    obtain ⟨d, hd', rfl⟩ := List.mem_map.mp hc
    exact (isHexDigit_toLower (hd d hd')).1

theorem key_key (h : isAddress s = true) : key (key s) = key s := by
  obtain ⟨ds, hs, _, hd⟩ := isAddress_iff.mp h
  apply String.toList_injective
  rw [toList_key (isAddress_key h), toList_key h, hs, List.map_map]
  have hds : ds.map (Char.toLower ∘ Char.toLower) = ds.map Char.toLower :=
    List.map_congr_left fun c hc => (isHexDigit_toLower (hd c hc)).2
  simp only [List.map_cons, hds]
  rfl

section Capital

def isKeyChar (c : Char) : Bool := isHexDigit c || c = 'x'

theorem isKeyChar_ascii (h : isKeyChar c = true) : c.toNat < 0x80 := by
  rcases Bool.or_eq_true_iff.mp h with h | h
  · exact isHexDigit_ascii h
  · obtain rfl := of_decide_eq_true h
    decide

/-- No capital outside ASCII has a small letter that occurs in keys. -/
theorem isKeyChar_smallLetter (h : 0x80 ≤ c.toNat) : isKeyChar (Text.smallLetter c) = false := by
  have hhigh : ∀ d : Char, 0x80 ≤ d.toNat → isKeyChar d = false := fun d hd =>
    Bool.eq_false_iff.mpr fun hkey => absurd (isKeyChar_ascii hkey) (by omega)
  have hruns : ∀ run ∈ Text.capitalRuns, run.2.1 < 0x80 ∨ 0x80 ≤ run.2.2.2 ∨
      run.2.2.2 = 0x6b ∧ run.1 = run.2.1 := by decide +kernel
  unfold Text.smallLetter
  split
  · rename_i first last step small hfind
    have hin := List.find?_some hfind
    simp only [Bool.and_eq_true, decide_eq_true_eq] at hin
    obtain hlast | hsmall | ⟨hk, hfirst⟩ := hruns _ (List.mem_of_find?_eq_some hfind)
    · dsimp only at hlast
      omega
    · by_cases hvalid : (small + (c.toNat - first)).isValidChar
      · refine hhigh _ ?_
        rw [Text.toNat_ofNat hvalid]
        dsimp only at hsmall
        omega
      · rw [Char.ofNat, dif_neg hvalid]
        decide
    · -- The sign for kelvin becomes a plain k.
      dsimp only at hk hfirst
      have hc : c.toNat - first = 0 := by omega
      rw [hk, hc]
      decide
  · exact hhigh c h

theorem ascii_of_lowercaseFrom {seen cs : List Char}
    (h : ∀ c ∈ Text.lowercaseFrom seen cs, isKeyChar c = true) : ∀ c ∈ cs, c.toNat < 0x80 := by
  induction cs generalizing seen with
  | nil => simp
  | cons c cs ih =>
    simp only [Text.lowercaseFrom, List.mem_append] at h
    have hc : c.toNat < 0x80 := by
      refine Nat.lt_of_not_le fun hle => ?_
      have hc : ¬ c.toNat < 0x80 := by omega
      have hsmall := fun d hd => h d (Or.inl hd)
      rw [if_neg hc] at hsmall
      split at hsmall
      · have hsigma := hsmall _ (List.mem_singleton_self _)
        split at hsigma <;> exact absurd hsigma (by decide)
      split at hsmall
      · exact absurd (hsmall 'i' List.mem_cons_self) (by decide)
      · have hkey := hsmall _ (List.mem_singleton_self _)
        rw [isKeyChar_smallLetter hle] at hkey
        cases hkey
    intro d hd
    rcases List.mem_cons.mp hd with rfl | hd
    · exact hc
    · exact ih (fun e he => h e (Or.inr he)) d hd

/-- Forty hexadecimal digits after `0X`. -/
def HasCapitalX (s : String) : Prop :=
  ∃ ds, s.toList = '0' :: 'X' :: ds ∧ ds.length = digitCount ∧ ∀ c ∈ ds, isHexDigit c = true

theorem toLower_of_ascii (h : c.toNat < 0x80) :
    (c.toLower = '0' → c = '0') ∧ (c.toLower = 'x' → c = 'x' ∨ c = 'X') ∧
      (isHexDigit c.toLower = true → isHexDigit c = true) := by
  refine of_ascii (P := fun c => (c.toLower = '0' → c = '0') ∧
    (c.toLower = 'x' → c = 'x' ∨ c = 'X') ∧
      (isHexDigit c.toLower = true → isHexDigit c = true)) h ?_
  decide

theorem isAddress_key_of_capital (h : HasCapitalX s) : isAddress (key s) = true := by
  obtain ⟨ds, hs, hlength, hds⟩ := h
  have hascii : ∀ c ∈ s.toList, c.toNat < 0x80 := by
    intro c hc
    simp only [hs, List.mem_cons] at hc
    rcases hc with rfl | rfl | hc
    · decide
    · decide
    · exact isHexDigit_ascii (hds c hc)
  refine isAddress_iff.mpr ⟨ds.map Char.toLower, ?_, by simpa using hlength, ?_⟩
  · rw [key, Text.lowercase, String.toList_ofList, Text.lowercaseFrom_ascii [] hascii, hs]
    rfl
  · intro c hc
    obtain ⟨d, hd, rfl⟩ := List.mem_map.mp hc
    exact (isHexDigit_toLower (hds d hd)).1

/-- What has an address as its key is an address, but for the letter case of its `x`. -/
theorem isAddress_key_iff : isAddress (key s) = true ↔ isAddress s = true ∨ HasCapitalX s := by
  refine ⟨fun h => ?_, fun h => h.elim isAddress_key isAddress_key_of_capital⟩
  obtain ⟨ds, hkey, hlength, hds⟩ := isAddress_iff.mp h
  rw [key, Text.lowercase, String.toList_ofList] at hkey
  have hascii : ∀ c ∈ s.toList, c.toNat < 0x80 := by
    refine @ascii_of_lowercaseFrom [] s.toList fun c hc => ?_
    simp only [hkey, List.mem_cons] at hc
    rcases hc with rfl | rfl | hc
    · decide
    · decide
    · simp [isKeyChar, hds c hc]
  rw [Text.lowercaseFrom_ascii [] hascii] at hkey
  obtain ⟨zero, _, hs, hzero, hrest⟩ := List.map_eq_cons_iff.mp hkey
  obtain ⟨x, rest, rfl, hx, rfl⟩ := List.map_eq_cons_iff.mp hrest
  simp only [hs, List.mem_cons, forall_eq_or_imp] at hascii
  obtain ⟨hzeroAscii, hxAscii, hrestAscii⟩ := hascii
  obtain rfl := (toLower_of_ascii hzeroAscii).1 hzero
  have hhex : ∀ c ∈ rest, isHexDigit c = true := fun c hc =>
    (toLower_of_ascii (hrestAscii c hc)).2.2 (hds _ (List.mem_map_of_mem hc))
  have hcount : rest.length = digitCount := by simpa using hlength
  rcases (toLower_of_ascii hxAscii).2.1 hx with rfl | rfl
  · exact Or.inl (isAddress_iff.mpr ⟨rest, hs, hcount, hhex⟩)
  · exact Or.inr ⟨rest, hs, hcount, hhex⟩

end Capital

end Address

end Allowance
