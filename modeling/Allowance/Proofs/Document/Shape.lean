import Allowance.Proofs.Document.Failures
import Mathlib.Data.List.Nodup

/-! # The shape of documents

The wire form of documents is given by a table for each level: which fields an object of that level
may have, what these admit, and what stands for a field that is absent. A value has the shape of a
level when its fields do. It is completed by writing all fields of the level in their order, with
the defaults for those that it lacks.
-/

namespace Allowance

open Checked

namespace Json

variable {v u : Json} {name : String} {fields : Fields}

def get? (v : Json) (name : String) : Option Json := v.fields?.bind (·.lookup name)

@[simp] theorem get?_object : (object fields).get? name = fields.lookup name := rfl

def items (v : Json) (name : String) : List Json :=
  match v.get? name with
  | some (.array us) => us
  | _ => []

def IsBool (v : Json) : Prop := ∃ b, v = .bool b

def IsText (v : Json) : Prop := ∃ s, v = .string s

def IsTexts (v : Json) : Prop := ∃ ss, v = .ofTexts ss

def IsListOf (P : Json → Prop) (v : Json) : Prop := ∃ us, v = .array us ∧ ∀ u ∈ us, P u

/-- A field of a wire form: what it admits, what becomes of that when it is completed, and what
stands for it where it is absent. -/
structure WireField where
  name : String
  Admits : Json → Prop
  complete : Json → Json := id
  default? : Option Json := none

/-- The fields of a wire form, in the order in which they are written. -/
structure Wire where
  fields : List WireField
  names : (fields.map (·.name)).Nodup

/-- The value is an object, and each of its fields is one of the wire form and holds what that
admits. -/
def Fits (wire : Wire) (v : Json) : Prop :=
  ∃ fields, v = .object fields ∧
    ∀ field ∈ fields, ∃ w ∈ wire.fields, w.name = field.1 ∧ w.Admits field.2

def WireField.written (w : WireField) (v : Json) : Fields :=
  match v.get? w.name with
  | some value => [(w.name, w.complete value)]
  | none => w.default?.toList.map (w.name, ·)

@[simp] theorem WireField.written_default {P : Json → Prop} :
    (WireField.mk name P id (some u)).written v = [(name, (v.get? name).getD u)] := by
  cases h : v.get? name <;> simp [written, h]

@[simp] theorem WireField.written_given {P : Json → Prop} :
    (WireField.mk name P id none).written v = (v.get? name).toList.map (name, ·) := by
  cases h : v.get? name <;> simp [written, h]

/-- The object with all fields of the wire form, those that are absent by default. -/
def completed (wire : Wire) (v : Json) : Json := .object (wire.fields.flatMap (·.written v))

def onItems (f : Json → Json) : Json → Json
  | .array us => .array (us.map f)
  | v => v

/-- A field that lists objects of another wire form; there are none by default. -/
def WireField.listing (name : String) (wire : Wire) : WireField where
  name
  Admits := IsListOf (Fits wire)
  complete := onItems (completed wire)
  default? := some (.array [])

variable {wire inner : Wire} {w : WireField}

theorem fits_object : (object fields).Fits wire ↔
    ∀ field ∈ fields, ∃ w ∈ wire.fields, w.name = field.1 ∧ w.Admits field.2 := by
  simp [Fits]

theorem isListOf_array {P : Json → Prop} {us : List Json} :
    (array us).IsListOf P ↔ ∀ u ∈ us, P u := by
  simp [IsListOf]

theorem Fits.admits (h : v.Fits wire) (hw : w ∈ wire.fields) (hu : v.get? w.name = some u) :
    w.Admits u := by
  obtain ⟨fields, rfl, hfields⟩ := h
  obtain ⟨before, after, rfl, -⟩ := List.lookup_eq_some_iff.mp hu
  obtain ⟨w', hw', hname, hadmits⟩ := hfields (w.name, u) (by simp)
  obtain rfl := List.inj_on_of_nodup_map wire.names hw' hw hname
  exact hadmits

theorem Fits.listed (h : v.Fits wire) (hw : .listing name inner ∈ wire.fields) :
    (v.get? name = none ∧ v.items name = [] ∨ v.get? name = some (.array (v.items name))) ∧
      ∀ u ∈ v.items name, u.Fits inner := by
  cases hname : v.get? name with
  | none => simp [items, hname]
  | some value =>
    obtain ⟨us, rfl, hus⟩ := h.admits hw hname
    have hitems : v.items name = us := by simp [items, hname]
    rw [hitems]
    exact ⟨Or.inr rfl, hus⟩

theorem Fits.partsIfAny (h : v.Fits wire) (hw : .listing name inner ∈ wire.fields) :
    ((v.get? name).getD .null).partsIfAny = .ok (v.items name) := by
  rcases (h.listed hw).1 with ⟨hnone, hitems⟩ | hsome
  · rw [hnone, hitems]
    rfl
  · rw [hsome]
    exact partsIfAny_array _

theorem Fits.written_listing (h : v.Fits wire) (hw : .listing name inner ∈ wire.fields) :
    (WireField.listing name inner).written v =
      [(name, .array ((v.items name).map (completed inner)))] := by
  rcases (h.listed hw).1 with ⟨hnone, hitems⟩ | hsome
  · simp [WireField.written, WireField.listing, hnone, hitems]
  · simp [WireField.written, WireField.listing, hsome, onItems]

/-- What is read from the listed objects is written where they were listed, if each is written as it
is completed. -/
theorem Fits.written_of_read {α : Type} {read : Json → Checked α} {write : α → Json}
    {parts : List Json} {xs : List α} (h : v.Fits wire) (hw : .listing name inner ∈ wire.fields)
    (hwrite : ∀ u, u.Fits inner → ∀ a, read u = .ok a → write a = u.completed inner)
    (hparts : ((v.get? name).getD .null).partsIfAny = .ok parts)
    (hread : parts.mapM read = .ok xs) :
    (WireField.listing name inner).written v = [(name, .array (xs.map write))] := by
  obtain rfl := Except.ok.inj ((h.partsIfAny hw).symm.trans hparts)
  rw [h.written_listing hw, map_of_mapM hread fun u hu => hwrite u ((h.listed hw).2 u hu)]

end Json

open Json

def Condition.wire : Wire where
  fields := [
    { name := "type", Admits := IsText, default? := some (.string typeWord) },
    { name := "resource", Admits := IsText },
    { name := "comparator", Admits := IsText },
    { name := "reference", Admits := fun v => v.IsFinite ∨ v.IsText ∨ v.IsTexts }]
  names := by decide

def Permission.wire : Wire where
  fields := [
    { name := "effect", Admits := IsText },
    { name := "chainId", Admits := IsText },
    { name := "type", Admits := IsText },
    .listing "conditions" Condition.wire]
  names := by decide

def Scope.wire : Wire where
  fields := [
    { name := "name", Admits := IsText },
    { name := "description", Admits := IsText, default? := some (.string "") },
    { name := "required", Admits := IsBool, default? := some (.bool false) },
    .listing "permissions" Permission.wire]
  names := by decide

def Document.wire : Wire where
  fields := [
    { name := "partnerId", Admits := IsText },
    { name := "validFrom", Admits := IsFinite },
    { name := "validTo", Admits := IsFinite },
    .listing "scopes" Scope.wire]
  names := by decide

end Allowance
