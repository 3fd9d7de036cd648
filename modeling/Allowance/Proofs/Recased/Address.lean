import Allowance.Proofs.Address
import Allowance.Proofs.Checked
import Allowance.Registry.Changes
import Mathlib.Data.List.Forall2

/-! # Letter case of addresses

The digits of an address may be written in either case. Two spellings of it have the same key, and
are both valid or both not. Where addresses arrive as values the same holds of the values: what is
taken as a set of addresses gives the same set.
-/

namespace Allowance

open List (Forall₂)

namespace Address

variable {c d : Char} {cs ds seen seen' : List Char} {s t : String}

def SameDigit (c d : Char) : Prop :=
  c = d ∨ isHexDigit c = true ∧ isHexDigit d = true ∧ c.toLower = d.toLower

instance : Decidable (SameDigit c d) := inferInstanceAs (Decidable (_ ∨ _))

/-- The texts are the same but for the case of hexadecimal digits after `0x`. -/
def Recased (s t : String) : Prop :=
  s = t ∨ ∃ cs ds, s.toList = '0' :: 'x' :: cs ∧ t.toList = '0' :: 'x' :: ds ∧
    Forall₂ SameDigit cs ds

theorem Recased.refl (s : String) : Recased s s := Or.inl rfl

theorem SameDigit.refl (c : Char) : SameDigit c c := Or.inl rfl

theorem SameDigit.isHexDigit (h : SameDigit c d) : Address.isHexDigit c = Address.isHexDigit d := by
  rcases h with rfl | ⟨hc, hd, -⟩
  · rfl
  · rw [hc, hd]

/-- Digits have case or not whatever their case is, and case never ignores them. -/
theorem cased_toLower (h : isHexDigit c = true) :
    Text.inRanges Text.casedRanges c.toNat = Text.inRanges Text.casedRanges c.toLower.toNat ∧
      Text.inRanges Text.caseIgnoredRanges c.toNat = false := by
  refine of_ascii (P := fun c => isHexDigit c = true →
    Text.inRanges Text.casedRanges c.toNat = Text.inRanges Text.casedRanges c.toLower.toNat ∧
      Text.inRanges Text.caseIgnoredRanges c.toNat = false) (isHexDigit_ascii h) ?_ h
  decide +kernel

theorem startsCased_cons : Text.startsCased (c :: cs) =
    if Text.inRanges Text.caseIgnoredRanges c.toNat then Text.startsCased cs
    else Text.inRanges Text.casedRanges c.toNat := by
  unfold Text.startsCased
  rw [List.dropWhile_cons]
  by_cases hignored : Text.inRanges Text.caseIgnoredRanges c.toNat = true <;> simp [hignored]

theorem startsCased_eq (h : Forall₂ SameDigit cs ds) :
    Text.startsCased cs = Text.startsCased ds := by
  induction h with
  | nil => rfl
  | @cons c d cs ds hcd _ ih =>
    rw [startsCased_cons, startsCased_cons, ih]
    rcases hcd with rfl | ⟨hc, hd, hlower⟩
    · rfl
    · obtain ⟨hcased, hignored⟩ := cased_toLower hc
      obtain ⟨hcased', hignored'⟩ := cased_toLower hd
      rw [hignored, hignored', hcased, hcased', hlower]

theorem lowercaseFrom_eq (hseen : Forall₂ SameDigit seen seen') (h : Forall₂ SameDigit cs ds) :
    Text.lowercaseFrom seen cs = Text.lowercaseFrom seen' ds := by
  induction h generalizing seen seen' with
  | nil => rfl
  | @cons c d cs ds hcd hrest ih =>
    have htail := ih (.cons hcd hseen)
    rcases hcd with rfl | ⟨hc, hd, hlower⟩
    · simp only [Text.lowercaseFrom, htail, startsCased_eq hseen, startsCased_eq hrest]
    · simp only [Text.lowercaseFrom, htail, isHexDigit_ascii hc, isHexDigit_ascii hd, if_true,
        hlower]

namespace Recased

theorem toList (h : Recased s t) : Forall₂ SameDigit s.toList t.toList := by
  rcases h with rfl | ⟨cs, ds, hs, ht, hdigits⟩
  · exact List.forall₂_same.mpr fun c _ => .refl c
  · rw [hs, ht]
    exact .cons (.refl _) (.cons (.refl _) hdigits)

theorem key (h : Recased s t) : Address.key s = Address.key t :=
  congrArg String.ofList (lowercaseFrom_eq .nil h.toList)

theorem isAddress (h : Recased s t) : Address.isAddress s = Address.isAddress t := by
  rcases h with rfl | ⟨cs, ds, hs, ht, hdigits⟩
  · rfl
  · have hall : cs.all isHexDigit = ds.all isHexDigit := by
      clear hs ht
      induction hdigits with
      | nil => rfl
      | cons hcd _ ih => rw [List.all_cons, List.all_cons, hcd.isHexDigit, ih]
    simp only [Address.isAddress, hs, ht, hdigits.length_eq, hall]

end Recased

end Address

namespace Json

variable {u v : Json} {us vs : List Json}

/-- The values are the same, or texts that differ in the case of digits after `0x`. -/
inductive Recased : Json → Json → Prop
  | same (v : Json) : Recased v v
  | text {s t : String} (h : Address.Recased s t) : Recased (.string s) (.string t)

/-- The values are spellings of one address, or consist of such spellings part by part. -/
def RecasedParts (u v : Json) : Prop :=
  Recased u v ∨ ∃ us vs, u.parts = .ok us ∧ v.parts = .ok vs ∧ Forall₂ Recased us vs

theorem Recased.addressKey (h : Recased u v) : u.addressKey = v.addressKey := by
  cases h with
  | same v => rfl
  | text hst => exact congrArg Except.ok hst.key

theorem Recased.isAddressValue (h : Recased u v) :
    Address.isAddressValue u = Address.isAddressValue v := by
  cases h with
  | same v => rfl
  | text hst => exact hst.isAddress

theorem Recased.null_or (h : Recased u v) : u = .null ∧ v = .null ∨ u ≠ .null ∧ v ≠ .null := by
  cases h with
  | same =>
    by_cases hu : u = .null
    · exact Or.inl ⟨hu, hu⟩
    · exact Or.inr ⟨hu, hu⟩
  | text hst => exact Or.inr ⟨nofun, nofun⟩

theorem Recased.plain (h : Recased u v) : Address.Recased u.plain v.plain := by
  cases h with
  | same v => exact .refl _
  | text hst => exact hst

theorem mapM_addressKey (h : Forall₂ (fun u v => u.addressKey = v.addressKey) us vs) :
    us.mapM addressKey = vs.mapM addressKey := by
  induction h with
  | nil => rfl
  | cons hkey _ ih => rw [List.mapM_cons, List.mapM_cons, hkey, ih]

theorem addressKey_characters {s t : String} (h : Address.Recased s t) :
    Forall₂ (fun u v => u.addressKey = v.addressKey)
      (s.toList.map fun c => Json.string (String.singleton c))
      (t.toList.map fun c => Json.string (String.singleton c)) := by
  rw [List.forall₂_map_left_iff, List.forall₂_map_right_iff]
  refine h.toList.imp fun c d hcd => ?_
  have hkey : Text.lowercaseFrom [] [c] = Text.lowercaseFrom [] [d] :=
    Address.lowercaseFrom_eq .nil (.cons hcd .nil)
  simp [Json.addressKey, Address.key, Text.lowercase, hkey]

end Json

namespace PolicyRecord

variable {u v : Json} {vs : List Json}

theorem addressSet_of_parts (h : v.parts = .ok vs) : addressSet v =
    vs.mapM Json.addressKey >>= fun keys => .ok (some (Json.distinct (keys.map .string))) := by
  cases v with
  | null => cases h
  | _ => simp only [addressSet, h, Checked.ok_bind]; rfl

theorem addressSet_eq (h : u.RecasedParts v) : addressSet u = addressSet v := by
  rcases h with h | ⟨us, vs, hus, hvs, h⟩
  · cases h with
    | same v => rfl
    | text hst =>
      rw [addressSet_of_parts rfl, addressSet_of_parts rfl,
        Json.mapM_addressKey (Json.addressKey_characters hst)]
  · have hkeys := Json.mapM_addressKey (h.imp fun _ _ => Json.Recased.addressKey)
    rw [addressSet_of_parts hus, addressSet_of_parts hvs, hkeys]

end PolicyRecord

end Allowance
