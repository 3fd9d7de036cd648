import Allowance.Document.Reading
import Allowance.Proofs.Checked

/-! # Looking into values

What each way of taking a value apart gives for the values that the library itself writes.
-/

namespace Allowance.Json

open Checked

theorem finite?_of_finite {n : Number} (h : n.isFinite? = some true) :
    (Json.number n).finite? = .ok (some n) := by
  simp [finite?, h]

theorem number_of_finite? {v : Json} {n : Number} (h : v.finite? = .ok (some n)) :
    v = .number n ∧ n.isFinite? = some true := by
  cases v with
  | number m =>
    simp only [finite?] at h
    split at h
    · rename_i hm
      obtain rfl : m = n := by simpa using h
      exact ⟨rfl, hm⟩
    · simp at h
    · simp at h
  | _ => simp [finite?] at h

@[simp] theorem partsIfAny_array (items : List Json) : (array items).partsIfAny = .ok items := by
  cases items <;> rfl

theorem texts?_map_string (ss : List String) : texts? (ss.map .string) = some ss := by
  induction ss with
  | nil => rfl
  | cons s ss ih =>
    simp only [texts?] at ih
    simp [texts?, text?, ih]

theorem texts?_eq_some {vs : List Json} {ss : List String} :
    texts? vs = some ss ↔ vs = ss.map .string := by
  constructor
  · intro h
    induction vs generalizing ss with
    | nil =>
      obtain rfl : [] = ss := Option.some.inj h
      rfl
    | cons v vs ih =>
      cases v with
      | string s =>
        obtain ⟨rest, hrest, hss⟩ : ∃ rest, texts? vs = some rest ∧ s :: rest = ss := by
          simpa [texts?, text?, Option.bind_eq_some_iff] using h
        rw [← hss, List.map_cons, ← ih hrest]
      | _ => simp [texts?, text?] at h
  · rintro rfl
    exact texts?_map_string ss

theorem map_string_texts {vs : List Json} (h : ∀ v ∈ vs, ∃ s, v = .string s) :
    (vs.filterMap Json.text?).map .string = vs := by
  induction vs with
  | nil => rfl
  | cons v vs ih =>
    obtain ⟨s, rfl⟩ := h v List.mem_cons_self
    have hvs := ih fun u hu => h u (List.mem_cons_of_mem _ hu)
    simp [Json.text?, hvs]

theorem wordOf_string {α : Type} (what : String) (words : List String) {ofWord? : String → Option α}
    {s : String} {a : α} (h : ofWord? s = some a) :
    (string s).wordOf what words ofWord? = .ok a := by
  simp [wordOf, text?, h]

theorem field_eq_ok {v found : Json} {name : String} : v.field name = .ok found ↔
    ∃ fields, v = .object fields ∧ (fields.lookup name).getD .null = found := by
  cases v <;> simp [field]

theorem fieldOr_eq_ok {v default found : Json} {name : String} :
    v.fieldOr name default = .ok found ↔
      ∃ fields, v = .object fields ∧ (fields.lookup name).getD default = found := by
  cases v <;> simp [fieldOr]

theorem field_eq_error {v : Json} {name : String} {e : Fault} (h : v.field name = .error e) :
    e = .misuse .noMember := by
  cases v <;> simp_all [field, misuse]

theorem same_string {v : Json} {s : String} : v.same (.string s) = true ↔ v = .string s := by
  cases v <;> simp [same]

section Failures

variable {kind : Fault → Prop} {v default : Json} {name : String}

def IsHuge (v : Json) : Prop := ∃ n, v = .number n ∧ n.isFinite? = none

def IsFinite (v : Json) : Prop := ∃ n, v = .number n ∧ n.isFinite? = some true

/-- The value is neither absent nor made of parts. -/
def IsSolid (v : Json) : Prop := (∃ b, v = .bool b) ∨ ∃ n, v = .number n

theorem IsFinite.not_huge (h : v.IsFinite) : ¬ v.IsHuge := by
  obtain ⟨n, rfl, hn⟩ := h
  rintro ⟨_, ⟨⟩, hhuge⟩
  simp [hn] at hhuge

theorem finite?_of_not_huge (h : ¬ v.IsHuge) :
    (∃ n, v = .number n ∧ n.isFinite? = some true ∧ v.finite? = .ok (some n)) ∨
      ¬ v.IsFinite ∧ v.finite? = .ok none := by
  cases v with
  | number n =>
    cases hn : n.isFinite? with
    | none => exact absurd ⟨n, rfl, hn⟩ h
    | some b => cases b <;> simp [IsFinite, finite?, hn]
  | _ => exact Or.inr ⟨by simp [IsFinite], rfl⟩

theorem fails_field_iff :
    Fails kind (v.field name) ↔ v.fields? = none ∧ kind (.misuse .noMember) := by
  cases v <;> simp [field, fields?]

theorem fails_fieldOr_iff :
    Fails kind (v.fieldOr name default) ↔ v.fields? = none ∧ kind (.misuse .noMember) := by
  cases v <;> simp [fieldOr, fields?]

theorem fails_finite?_iff : Fails kind v.finite? ↔ v.IsHuge ∧ kind (.misuse .tooLarge) := by
  unfold finite? IsHuge
  split
  · split <;> simp_all
  · simp_all

theorem fails_parts_iff :
    Fails kind v.parts ↔ (v = .null ∨ v.IsSolid) ∧ kind (.misuse .wrongKind) := by
  cases v <;> simp [parts, IsSolid]

end Failures

end Allowance.Json
