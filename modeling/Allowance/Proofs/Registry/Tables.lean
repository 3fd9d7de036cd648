import Allowance.Proofs.Registry.Changes
import Allowance.Proofs.World.State
import Allowance.Registry.Authority

/-! # The tables of a registry

A registry keeps three tables: policies by id, links by the key of the child, and published
documents by the key of the child. A world holds tables when its files and its memory are read as
them. Each step of the registry that reads or writes is described by what it does to the tables.
-/

namespace Allowance

open Checked

namespace State

variable {α β : Type} {d d' : Disk} {w : World} {path name path' name' : String}
  {read : Json → Checked α} {table : String → Option α} {v : Json} {a : α}

/-- The records of a section are read as the entries of a table. -/
def Table (d : Disk) (path name : String) (read : Json → Checked α) (table : String → Option α) :
    Prop :=
  ∃ records, Section d path name records ∧
    ∀ key, Option.Rel (fun v a => v ≠ .null ∧ read v = .ok a) (records.lookup key) (table key)

theorem Table.of_others (h : Table d path' name' read table) (hothers : Others d d' path name)
    (hind : Independent path name path' name') : Table d' path' name' read table := by
  obtain ⟨records, hsection, hread⟩ := h
  exact ⟨records, hothers _ _ _ hind hsection, hread⟩

theorem Table.get (h : Table w.disk path name read table) (key : String) : ∃ v,
    (get path name key).perform w = (.ok v, w) ∧
      (v = .null ∧ table key = none ∨ v ≠ .null ∧ ∃ a, table key = some a ∧ read v = .ok a) := by
  obtain ⟨records, hsection, hread⟩ := h
  refine ⟨_, hsection.get, ?_⟩
  have hkey := hread key
  generalize records.lookup key = found at hkey
  generalize table key = entry at hkey
  cases hkey with
  | none => exact Or.inl ⟨rfl, rfl⟩
  | some hv => exact Or.inr ⟨hv.1, _, rfl, hv.2⟩

theorem Table.put (h : Table w.disk path name read table) (key : String) (hv : v ≠ .null)
    (hread : read v = .ok a) :
    ∃ d, (State.put path name key v).perform w = (.ok (), { w with disk := d }) ∧
      Table d path name read (Function.update table key (some a)) ∧
      Edited w.disk d path name (Json.Fields.put · key v) := by
  obtain ⟨records, hsection, hreads⟩ := h
  obtain ⟨d, hperform, hsection', hothers⟩ := hsection.put key v
  refine ⟨d, hperform, ⟨_, hsection', fun other => ?_⟩, ⟨records, hsection, hsection'⟩, hothers⟩
  rw [Json.Fields.lookup_put, Function.update_apply]
  split
  · exact .some ⟨hv, hread⟩
  · exact hreads other

theorem Table.delete (h : Table w.disk path name read table) (key : String) :
    ∃ d found, (State.delete path name key).perform w = (.ok found, { w with disk := d }) ∧
      Table d path name read (Function.update table key none) ∧
      Edited w.disk d path name (Json.Fields.erase · key) := by
  obtain ⟨records, hsection, hreads⟩ := h
  obtain ⟨d, hperform, hsection', hothers⟩ := hsection.delete key
  refine ⟨d, _, hperform, ⟨_, hsection', fun other => ?_⟩, ⟨records, hsection, hsection'⟩,
    hothers⟩
  rw [Json.Fields.lookup_erase, Function.update_apply]
  split
  · exact .none
  · exact hreads other

end State

/-- What a shelf holds of published documents. -/
def Shelf.Holds (shelf : Shelf) (w : World) (published : String → Option Publication) : Prop :=
  match shelf with
  | memory => ∀ key, w.shelf.lookup key = published key
  | file path => State.Table w.disk path State.publications Publication.ofJson published

def Shelf.entry? (shelf : Shelf) (key : String) : Step (Option Publication) :=
  match shelf with
  | memory => do return (← getThe World).shelf.lookup key
  | file path => do
    match ← State.get path State.publications key with
    | .null => return none
    | v => return some (← Publication.ofJson v)

theorem Shelf.Holds.entry {shelf : Shelf} {w : World} {published : String → Option Publication}
    (h : shelf.Holds w published) (key : String) :
    (shelf.entry? key).perform w = (.ok (published key), w) := by
  cases shelf with
  | memory =>
    simp only [Shelf.Holds] at h
    simp [Shelf.entry?, h]
  | file path =>
    obtain ⟨v, hget, ⟨rfl, hnone⟩ | ⟨hv, p, hsome, hread⟩⟩ := State.Table.get h key
    · simp [Shelf.entry?, Step.perform_bind, hget, hnone]
    · cases v <;> simp_all [Shelf.entry?, Step.perform_bind]

theorem Shelf.holds_memory_put {w : World} {published : String → Option Publication}
    (h : memory.Holds w published) (key : String) (p : Publication) :
    memory.Holds { w with shelf := w.shelf.filter (fun entry => entry.1 != key) ++ [(key, p)] }
      (Function.update published key (some p)) := by
  simp only [Shelf.Holds] at h ⊢
  intro other
  simp only [List.lookup_append, lookup_filter_ne, lookup_cons_if, List.lookup_nil,
    Function.update_apply, h other]
  split <;> simp

theorem Shelf.holds_memory_remove {w : World} {published : String → Option Publication}
    (h : memory.Holds w published) (key : String) :
    memory.Holds { w with shelf := w.shelf.filter (·.1 != key) }
      (Function.update published key none) := by
  simp only [Shelf.Holds] at h ⊢
  intro other
  simp only [lookup_filter_ne, Function.update_apply, h other]

theorem Shelf.get?_eq (shelf : Shelf) (c : String) :
    shelf.get? (.string c) = shelf.entry? (Address.key c) := by
  cases shelf <;> rfl

/-- The contents of the policy section, the link section and the shelf. -/
@[ext] structure Registry.Tables where
  policy : String → Option PolicyRecord
  link : String → Option LinkRecord
  published : String → Option Publication

namespace Registry

variable {r : Registry} {w w' : World} {t : Tables} {p q : PolicyRecord} {key c : String}
  {id : Json}

/-- A file that documents are published in is the state file, or neither lies in the way of the
other. -/
def Separate (r : Registry) : Prop :=
  ∀ path, r.shelf = .file path → path = r.path ∨ Disk.Apart r.path path ∧ Disk.Apart path r.path

structure Holds (r : Registry) (w : World) (t : Tables) : Prop where
  separate : r.Separate
  policies : State.Table w.disk r.path State.policies PolicyRecord.ofJson t.policy
  links : State.Table w.disk r.path State.links LinkRecord.ofJson t.link
  published : r.shelf.Holds w t.published

theorem Holds.congr (h : r.Holds w t) (hdisk : w'.disk = w.disk) (hshelf : w'.shelf = w.shelf) :
    r.Holds w' t where
  separate := h.separate
  policies := hdisk ▸ h.policies
  links := hdisk ▸ h.links
  published := by
    have hp := h.published
    unfold Shelf.Holds at *
    split at hp <;> simp_all

theorem Holds.published_of_others {d : Disk} {name : String} (h : r.Holds w t)
    (hothers : State.Others w.disk d r.path name) (hname : name ≠ State.publications) :
    r.shelf.Holds { w with disk := d } t.published := by
  have hp := h.published
  cases hshelf : r.shelf with
  | memory => rwa [hshelf] at hp
  | file path =>
    rw [hshelf] at hp
    refine State.Table.of_others hp hothers ?_
    rcases h.separate path hshelf with rfl | ⟨hapart, _⟩
    · exact Or.inl ⟨rfl, hname.symm⟩
    · exact Or.inr hapart

theorem Holds.get (h : r.Holds w t) : (r.get (.string key)).perform w =
    (match t.policy key with
      | some p => .ok p
      | none => .error (.noRecord (.string key)), w) := by
  obtain ⟨v, hget, ⟨rfl, hnone⟩ | ⟨hv, p, hsome, hread⟩⟩ := h.policies.get key
  · simp [Registry.get, stored, Step.perform_bind, hget, hnone]
  · cases v <;> simp_all [Registry.get, stored, Step.perform_bind]

theorem Holds.get_leads (h : r.Holds w t) : (r.get id).Leads w
    (fun p w' => w' = w ∧ ∃ key, id = .string key ∧ t.policy key = some p)
    (fun _ w' => w' = w) := by
  by_cases hid : ∃ key, id = .string key
  · obtain ⟨key, rfl⟩ := hid
    rw [Step.Leads, h.get]
    cases hp : t.policy key with
    | none => rfl
    | some p => exact ⟨rfl, key, rfl, hp⟩
  · obtain ⟨v, hget, _⟩ := h.policies.get ""
    have hstored : ∃ res, (r.stored id).perform w = (res, w) ∧ (∀ v, res = .ok v → v = .null) := by
      cases id <;> simp_all [stored, Step.perform_bind, Json.isScalar, Except.map]
    obtain ⟨res, hres, hnull⟩ := hstored
    cases res with
    | error e => simp [Registry.get, Step.Leads, Step.perform_bind, hres]
    | ok v => simp [Registry.get, Step.Leads, Step.perform_bind, hres, hnull v rfl]

theorem Holds.link? (h : r.Holds w t) :
    (r.link? (.string c)).perform w = (.ok (t.link (Address.key c)), w) := by
  obtain ⟨v, hget, ⟨rfl, hnone⟩ | ⟨hv, l, hsome, hread⟩⟩ := h.links.get (Address.key c)
  · simp [Registry.link?, Json.addressKey, Step.perform_bind, hget, hnone]
  · cases v <;> simp_all [Registry.link?, Json.addressKey, Step.perform_bind, Except.map]

theorem Holds.entry (h : r.Holds w t) (key : String) :
    (r.shelf.entry? key).perform w = (.ok (t.published key), w) :=
  h.published.entry key

theorem Holds.save (h : r.Holds w t) (hid : p.id = .string key) (hp : p.Storable) :
    ∃ d q v, (r.save p).perform w = (.ok (), { w with disk := d }) ∧ q.Agrees p ∧ q.Storable ∧
      r.Holds { w with disk := d } { t with policy := Function.update t.policy key (some q) } ∧
      State.Edited w.disk d r.path State.policies (Json.Fields.put · key v) := by
  obtain ⟨v, q, hv, hnull, hread, hagrees, hq⟩ := hp.reread
  obtain ⟨d, hput, htable, hedited⟩ := h.policies.put key hnull hread
  refine ⟨d, q, v, ?_, hagrees, hq, ⟨h.separate, htable, ?_, ?_⟩, hedited⟩
  · simp [Registry.save, Step.perform_bind, hv, hid, Json.recordKey, hput]
  · exact h.links.of_others hedited.others (Or.inl ⟨rfl, by decide⟩)
  · exact h.published_of_others hedited.others (by decide)

theorem Holds.put_link (h : r.Holds w t) (key : String) (l : LinkRecord) :
    ∃ d, (State.put r.path State.links key l.toJson).perform w = (.ok (), { w with disk := d }) ∧
      r.Holds { w with disk := d } { t with link := Function.update t.link key (some l) } := by
  obtain ⟨d, hput, htable, hedited⟩ := h.links.put key (v := l.toJson) nofun l.ofJson_toJson
  refine ⟨d, hput, h.separate, ?_, htable, ?_⟩
  · exact h.policies.of_others hedited.others (Or.inl ⟨rfl, by decide⟩)
  · exact h.published_of_others hedited.others (by decide)

theorem Holds.delete_link (h : r.Holds w t) (key : String) : ∃ d found,
    (State.delete r.path State.links key).perform w = (.ok found, { w with disk := d }) ∧
      r.Holds { w with disk := d } { t with link := Function.update t.link key none } := by
  obtain ⟨d, found, hdelete, htable, hedited⟩ := h.links.delete key
  refine ⟨d, found, hdelete, h.separate, ?_, htable, ?_⟩
  · exact h.policies.of_others hedited.others (Or.inl ⟨rfl, by decide⟩)
  · exact h.published_of_others hedited.others (by decide)

theorem Holds.delete_policy (h : r.Holds w t) (key : String) : ∃ d found,
    (State.delete r.path State.policies key).perform w = (.ok found, { w with disk := d }) ∧
      r.Holds { w with disk := d } { t with policy := Function.update t.policy key none } ∧
      State.Edited w.disk d r.path State.policies (Json.Fields.erase · key) := by
  obtain ⟨d, found, hdelete, htable, hedited⟩ := h.policies.delete key
  refine ⟨d, found, hdelete, ⟨h.separate, htable, ?_, ?_⟩, hedited⟩
  · exact h.links.of_others hedited.others (Or.inl ⟨rfl, by decide⟩)
  · exact h.published_of_others hedited.others (by decide)

theorem Holds.of_shelf {d : Disk} {path : String} {published : String → Option Publication}
    (h : r.Holds w t) (hshelf : r.shelf = .file path)
    (hothers : State.Others w.disk d path State.publications)
    (htable : State.Table d path State.publications Publication.ofJson published) :
    r.Holds { w with disk := d } { t with published } := by
  have hind : ∀ name, name ≠ State.publications →
      State.Independent path State.publications r.path name := by
    intro name hname
    rcases h.separate path hshelf with rfl | ⟨_, hapart⟩
    · exact Or.inl ⟨rfl, hname⟩
    · exact Or.inr hapart
  refine ⟨h.separate, h.policies.of_others hothers (hind _ (by decide)),
    h.links.of_others hothers (hind _ (by decide)), ?_⟩
  rwa [hshelf]

theorem Holds.shelf_put (h : r.Holds w t) (c : String) {pub : Publication}
    (hpub : pub.document.WellFormed) :
    ∃ w', (r.shelf.put (.string c) pub).perform w = (.ok (), w') ∧ r.Holds w'
      { t with published := Function.update t.published (Address.key c) (some pub) } := by
  have hp := h.published
  cases hshelf : r.shelf with
  | memory =>
    rw [hshelf] at hp
    refine ⟨_, rfl, h.separate, h.policies, h.links, ?_⟩
    rw [hshelf]
    exact Shelf.holds_memory_put hp (Address.key c) pub
  | file path =>
    rw [hshelf] at hp
    obtain ⟨d, hput, htable, hedited⟩ := State.Table.put hp (Address.key c) (v := pub.toJson) nofun
      (Publication.ofJson_toJson hpub)
    have hstored := h.of_shelf hshelf hedited.others htable
    have hperform := Step.perform_bind_of_ok hput (f := fun _ => Step.log .info Shelf.logger
      ("stored policy for " ++ Address.short (Address.key c) ++ " in " ++ path))
    exact ⟨_, hperform.trans Step.perform_log, hstored.congr rfl rfl⟩

theorem Holds.shelf_remove (h : r.Holds w t) (c : String) :
    ∃ w', (r.shelf.remove (.string c)).perform w = (.ok (), w') ∧ r.Holds w'
      { t with published := Function.update t.published (Address.key c) none } := by
  have hp := h.published
  cases hshelf : r.shelf with
  | memory =>
    rw [hshelf] at hp
    refine ⟨_, rfl, h.separate, h.policies, h.links, ?_⟩
    rw [hshelf]
    exact Shelf.holds_memory_remove hp (Address.key c)
  | file path =>
    rw [hshelf] at hp
    obtain ⟨d, found, hdelete, htable, hedited⟩ := State.Table.delete hp (Address.key c)
    refine ⟨{ w with disk := d }, ?_, (h.of_shelf hshelf hedited.others htable).congr rfl rfl⟩
    simp [Shelf.remove, Json.addressKey, Step.perform_bind, hdelete]

end Registry

end Allowance
