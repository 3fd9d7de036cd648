import Allowance.Proofs.Checked
import Allowance.Proofs.World.Step
import Allowance.World.State
import Mathlib.Logic.Function.Basic

/-! # Sections of the state file as tables

A section of the state file is a table from keys to what its records are read as. Putting a record
and removing one change the table at their key alone. They leave the tables of the other sections
as they are, and those of every file that does not lie in the way of this one.
-/

namespace Allowance

open Checked

theorem lookup_cons_if {α : Type} {key name : String} {a : α} {rest : List (String × α)} :
    ((name, a) :: rest).lookup key = if key = name then some a else rest.lookup key := by
  rw [List.lookup_cons]
  split <;> simp_all

theorem lookup_filter_ne {α : Type} {key name : String} {entries : List (String × α)} :
    (entries.filter fun entry => entry.1 != name).lookup key =
      if key = name then none else entries.lookup key := by
  induction entries with
  | nil => simp
  | cons entry entries ih =>
    obtain ⟨other, old⟩ := entry
    rw [List.filter_cons, lookup_cons_if]
    by_cases hother : other = name
    · simp only [hother, bne_self_eq_false, Bool.false_eq_true, if_false, ih]
      by_cases hkey : key = name <;> simp [hkey]
    · by_cases hkey : key = other
      · simp [hother, hkey]
      · simp [hother, lookup_cons_if, ih, hkey]

namespace Json.Fields

variable {fields : Fields} {name key : String} {v : Json}

theorem lookup_put : (fields.put name v).lookup key =
    if key = name then some v else fields.lookup key := by
  induction fields with
  | nil => rw [put, lookup_cons_if]
  | cons field fields ih =>
    obtain ⟨other, old⟩ := field
    rw [put]
    by_cases hother : other = name
    · subst hother
      by_cases hkey : key = other <;> simp [lookup_cons_if, hkey]
    · rw [if_neg hother, lookup_cons_if, lookup_cons_if, ih]
      by_cases hkey : key = other
      · simp [hkey, hother]
      · simp [hkey]

theorem lookup_erase : (Fields.erase fields name).lookup key =
    if key = name then none else fields.lookup key :=
  lookup_filter_ne

theorem erase_eq_self (h : fields.lookup name = none) : Fields.erase fields name = fields := by
  refine List.filter_eq_self.mpr fun field hfield => ?_
  simpa [bne, Bool.beq_comm] using List.lookup_eq_none_iff.mp h field hfield

theorem erase_put (h : fields.lookup name = none) :
    Fields.erase (fields.put name v) name = fields := by
  induction fields with
  | nil => simp [put, erase]
  | cons field fields ih =>
    obtain ⟨other, old⟩ := field
    rw [lookup_cons_if] at h
    by_cases hother : name = other
    · simp [hother] at h
    · rw [if_neg hother] at h
      rw [put, if_neg (Ne.symm hother)]
      have hfields := ih h
      unfold erase at hfields ⊢
      rw [List.filter_cons_of_pos (by simpa using Ne.symm hother), hfields]

end Json.Fields

namespace Disk

variable {d : Disk} {path other : String} {content : Content}

theorem lookup_putFile {files : List (String × Content)} :
    (putFile files path content).lookup other =
      if other = path then some content else files.lookup other := by
  induction files with
  | nil => rw [putFile, lookup_cons_if]
  | cons file files ih =>
    obtain ⟨name, old⟩ := file
    rw [putFile]
    by_cases hname : name = path
    · subst hname
      by_cases hother : other = name <;> simp [lookup_cons_if, hother]
    · rw [if_neg hname, lookup_cons_if, lookup_cons_if, ih]
      by_cases hother : other = name
      · simp [hother, hname]
      · simp [hother]

theorem open?_write : (d.write path content).open? path = .ok (some content) := by
  simp [open?, lookup, write, lookup_putFile]

/-- The second file opens as before when the first one is written, so neither lies in the way of the
other. -/
def Apart (path other : String) : Prop :=
  ∀ (d : Disk) (content : Content), (d.write path content).open? other = d.open? other

def state? (d : Disk) (path : String) : Checked Json.Fields := do
  match ← d.open? path with
  | some content => State.ofContent content
  | none => return State.withSections []

theorem state?_write (fields : Json.Fields) :
    (d.write path (.state (.object fields))).state? path = .ok (State.withSections fields) := by
  simp [state?, open?_write, State.ofContent, Content.toJson, pure, Except.pure]

end Disk

namespace State

variable {d d' : Disk} {w : World} {path name key path' name' : String}
  {fields records : Json.Fields} {v : Json}

@[simp] theorem perform_load : (load path).perform w = (w.disk.state? path, w) := by
  simp only [load, Disk.state?, Step.perform_bind, Step.perform_getThe, Step.perform_lift]
  cases w.disk.open? path with
  | error e => rfl
  | ok found =>
    cases found with
    | none => rfl
    | some content => simp

theorem perform_get : (State.get path name key).perform w =
    (w.disk.state? path >>= fun state => (sectionOf state name).field key, w) := by
  rw [State.get, Step.perform_bind, perform_load]
  cases w.disk.state? path <;> simp

@[simp] theorem perform_save {state : Json} : (save path state).perform w =
    (.ok (), { w with disk := w.disk.write path (.state state) }) := rfl

section Known

variable {state : Json.Fields}

theorem perform_put (hstate : w.disk.state? path = .ok state)
    (hrecords : sectionOf state name = .object records) :
    (put path name key v).perform w = (.ok (), { w with
      disk := w.disk.write path
        (.state (.object (state.put name (.object (Json.Fields.put records key v))))) }) := by
  simp [State.put, Step.perform_bind, hstate, hrecords]

theorem perform_delete_of_some (hstate : w.disk.state? path = .ok state)
    (hrecords : sectionOf state name = .object records) (hkey : records.lookup key = some v) :
    (delete path name key).perform w = (.ok true, { w with
      disk := w.disk.write path
        (.state (.object (state.put name (.object (Json.Fields.erase records key))))) }) := by
  simp [State.delete, Step.perform_bind, hstate, hrecords, Json.mentions, hkey, Except.map]

theorem perform_delete_of_none (hstate : w.disk.state? path = .ok state)
    (hrecords : sectionOf state name = .object records) (hkey : records.lookup key = none) :
    (delete path name key).perform w = (.ok false, w) := by
  simp [State.delete, Step.perform_bind, hstate, hrecords, Json.mentions, hkey]

theorem perform_values (hstate : w.disk.state? path = .ok state)
    (hrecords : sectionOf state name = .object records) :
    (values path name).perform w = (.ok (records.map (·.2)), w) := by
  simp [State.values, Step.perform_bind, hstate, hrecords]

end Known

theorem sectionOf_withSections : sectionOf (withSections fields) name = sectionOf fields name := by
  have hadd : ∀ (fields : Json.Fields) other, sectionOf
      (if (fields.lookup other).isSome then fields else fields.put other (.object [])) name =
      sectionOf fields name := by
    intro fields other
    split
    · rfl
    · rename_i hnone
      by_cases h : name = other
      · subst h
        have hlookup : fields.lookup name = none := Option.not_isSome_iff_eq_none.mp hnone
        simp [sectionOf, Json.Fields.lookup_put, hlookup]
      · simp [sectionOf, Json.Fields.lookup_put, h]
  simp only [withSections, sections, List.foldl_cons, List.foldl_nil, hadd]

def Section (d : Disk) (path name : String) (records : Json.Fields) : Prop :=
  ∃ state, d.state? path = .ok state ∧ sectionOf state name = .object records

def Independent (path name path' name' : String) : Prop :=
  path' = path ∧ name' ≠ name ∨ Disk.Apart path path'

/-- The second disk has all sections of the first that do not depend on a given one. -/
def Others (d d' : Disk) (path name : String) : Prop :=
  ∀ path' name' records, Independent path name path' name' →
    Section d path' name' records → Section d' path' name' records

theorem Others.refl (d : Disk) (path name : String) : Others d d path name := by
  intro path' name' records _ hsection
  exact hsection

theorem Others.trans {d'' : Disk} (h : Others d d' path name) (h' : Others d' d'' path name) :
    Others d d'' path name :=
  fun path' name' records hind hsection =>
    h' path' name' records hind (h path' name' records hind hsection)

/-- The records of a section were changed, and every section that does not depend on it is as it
was. -/
structure Edited (d d' : Disk) (path name : String) (edit : Json.Fields → Json.Fields) : Prop where
  records : ∃ records, Section d path name records ∧ Section d' path name (edit records)
  others : Others d d' path name

def Same (d d' : Disk) (path name : String) : Prop :=
  ∃ records, Section d path name records ∧ Section d' path name records

theorem Same.of_others {e e' : Disk} (h : Same d d' path' name') (hothers : Others d e path name)
    (hothers' : Others d' e' path name) (hind : Independent path name path' name') :
    Same e e' path' name' := by
  obtain ⟨records, hsection, hsection'⟩ := h
  exact ⟨records, hothers _ _ _ hind hsection, hothers' _ _ _ hind hsection'⟩

theorem Section.unique {records' : Json.Fields} (h : Section d path name records)
    (h' : Section d path name records') : records = records' := by
  obtain ⟨state, hstate, hrecords⟩ := h
  obtain ⟨state', hstate', hrecords'⟩ := h'
  obtain rfl := Except.ok.inj (hstate.symm.trans hstate')
  exact Json.object.inj (hrecords.symm.trans hrecords')

theorem Edited.trans {d'' : Disk} {edit edit' : Json.Fields → Json.Fields}
    (h : Edited d d' path name edit) (h' : Edited d' d'' path name edit') :
    Edited d d'' path name (edit' ∘ edit) := by
  obtain ⟨records, hsection, hedited⟩ := h.records
  obtain ⟨records', hsection', hedited'⟩ := h'.records
  obtain rfl := hedited.unique hsection'
  exact ⟨⟨records, hsection, hedited'⟩, h.others.trans h'.others⟩

theorem Section.write {state : Json.Fields} (hstate : d.state? path = .ok state) (name : String)
    (records : Json.Fields) : ∃ d', d' = d.write path
        (.state (.object (state.put name (.object records)))) ∧
      Section d' path name records ∧ Others d d' path name := by
  refine ⟨_, rfl, ⟨_, Disk.state?_write _, ?_⟩, ?_⟩
  · rw [sectionOf_withSections]
    simp [sectionOf, Json.Fields.lookup_put]
  · rintro path' name' records' (⟨rfl, hname⟩ | hapart) ⟨state', hstate', hrecords⟩
    · obtain rfl := Except.ok.inj (hstate.symm.trans hstate')
      refine ⟨_, Disk.state?_write _, ?_⟩
      rw [sectionOf_withSections]
      simpa [sectionOf, Json.Fields.lookup_put, hname] using hrecords
    · refine ⟨state', ?_, hrecords⟩
      rw [← hstate', Disk.state?, hapart d, Disk.state?]

theorem Section.get (h : Section w.disk path name records) :
    (get path name key).perform w = (.ok ((records.lookup key).getD .null), w) := by
  obtain ⟨state, hstate, hrecords⟩ := h
  simp [State.get, Step.perform_bind, hstate, hrecords, Json.field]

theorem Section.values (h : Section w.disk path name records) :
    (values path name).perform w = (.ok (records.map (·.2)), w) := by
  obtain ⟨state, hstate, hrecords⟩ := h
  exact perform_values hstate hrecords

theorem Section.put (h : Section w.disk path name records) (key : String) (v : Json) : ∃ d,
    (put path name key v).perform w = (.ok (), { w with disk := d }) ∧
      Section d path name (Json.Fields.put records key v) ∧ Others w.disk d path name := by
  obtain ⟨state, hstate, hrecords⟩ := h
  obtain ⟨d, hd, hsection, hothers⟩ :=
    Section.write hstate name (Json.Fields.put records key v)
  refine ⟨d, ?_, hsection, hothers⟩
  rw [perform_put hstate hrecords, hd]

theorem Section.delete (h : Section w.disk path name records) (key : String) : ∃ d,
    (delete path name key).perform w =
        (.ok (records.lookup key).isSome, { w with disk := d }) ∧
      Section d path name (Json.Fields.erase records key) ∧ Others w.disk d path name := by
  obtain ⟨state, hstate, hrecords⟩ := h
  cases hlookup : records.lookup key with
  | none =>
    have herase := Json.Fields.erase_eq_self hlookup
    refine ⟨w.disk, ?_, ⟨state, hstate, herase.symm ▸ hrecords⟩, Others.refl _ _ _⟩
    exact perform_delete_of_none hstate hrecords hlookup
  | some v =>
    obtain ⟨d, hd, hsection, hothers⟩ :=
      Section.write hstate name (Json.Fields.erase records key)
    refine ⟨d, ?_, hsection, hothers⟩
    rw [perform_delete_of_some hstate hrecords hlookup, hd, Option.isSome_some]

end State

end Allowance
