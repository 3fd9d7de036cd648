import Allowance.Proofs.Registry.Reachable

/-! # A new policy

A policy that was just stored is deleted again or linked to a child. Deleting it takes back what
storing it wrote, to the last record. Linking it changes nothing else, except that the policy that
had the child before loses it.
-/

namespace Allowance

namespace State

variable {α : Type} {d d' : Disk} {path name key : String} {records : Json.Fields}
  {read : Json → Checked α} {table : String → Option α}

theorem Table.same (h : Table d path name read table) : Same d d path name := by
  obtain ⟨records, hsection, _⟩ := h
  exact ⟨records, hsection, hsection⟩

theorem Table.lookup_eq_none (h : Table d path name read table) (hnone : table key = none)
    (hsection : Section d path name records) : records.lookup key = none := by
  obtain ⟨records', hsection', hread⟩ := h
  obtain rfl := hsection.unique hsection'
  have hkey := hread key
  rw [hnone] at hkey
  cases hlookup : records.lookup key with
  | none => rfl
  | some v => simp [hlookup] at hkey

theorem Table.of_same (h : Table d path name read table) (hsame : Same d d' path name) :
    Table d' path name read table := by
  obtain ⟨records, hsection, hread⟩ := h
  obtain ⟨records', hbefore, hafter⟩ := hsame
  obtain rfl := hsection.unique hbefore
  exact ⟨records, hafter, hread⟩

end State

namespace Registry

variable {r : Registry} {w w₁ w₂ w' : World} {t t' : Tables} {p q : PolicyRecord}
  {id address : String}

/-- Policies, links and published documents are exactly as they were, in the same order. -/
structure Unchanged (r : Registry) (w w' : World) : Prop where
  policies : State.Same w.disk w'.disk r.path State.policies
  links : State.Same w.disk w'.disk r.path State.links
  published : match r.shelf with
    | .memory => w'.shelf = w.shelf
    | .file path => State.Same w.disk w'.disk path State.publications

theorem Holds.unchanged (h : r.Holds w t)
    (hpolicies : State.Same w.disk w'.disk r.path State.policies)
    (hothers : State.Others w.disk w'.disk r.path State.policies) (hshelf : w'.shelf = w.shelf) :
    r.Unchanged w w' where
  policies := hpolicies
  links := h.links.same.of_others (.refl _ _ _) hothers (Or.inl ⟨rfl, by decide⟩)
  published := by
    have hp := h.published
    split
    · exact hshelf
    · rename_i path hfile
      rw [hfile] at hp
      refine State.Table.same hp |>.of_others (.refl _ _ _) hothers ?_
      rcases h.separate path hfile with rfl | ⟨hapart, _⟩
      · exact Or.inl ⟨rfl, by decide⟩
      · exact Or.inr hapart

theorem Holds.unchanged_of_kept (h : r.Holds w t) (hkept : w.Kept w') : r.Unchanged w w' := by
  refine h.unchanged ?_ ?_ hkept.shelf
  · rw [hkept.disk]
    exact h.policies.same
  · rw [hkept.disk]
    exact fun _ _ _ _ hsection => hsection

theorem Unchanged.of_kept (hkept : w.Kept w₁) (h : r.Unchanged w₁ w') : r.Unchanged w w' where
  policies := hkept.disk ▸ h.policies
  links := hkept.disk ▸ h.links
  published := by
    have hp := h.published
    rwa [hkept.disk, hkept.shelf] at hp

theorem Holds.of_unchanged (h : r.Holds w t) (hsame : r.Unchanged w w') : r.Holds w' t where
  separate := h.separate
  policies := h.policies.of_same hsame.policies
  links := h.links.of_same hsame.links
  published := by
    have hp := h.published
    have hs := hsame.published
    cases hshelf : r.shelf with
    | memory =>
      simp only [hshelf] at hp hs
      simpa only [Shelf.Holds, hs] using hp
    | file path =>
      simp only [hshelf] at hp hs
      exact State.Table.of_same hp hs

theorem Holds.delete_unlinked (h : r.Holds w t) (hp : t.policy id = some p)
    (hchild : p.child = .null) : (r.delete (.string id)).Leads w
      (fun _ w' => State.Edited w.disk w'.disk r.path State.policies (Json.Fields.erase · id) ∧
        w'.shelf = w.shelf)
      (fun _ _ => False) := by
  have hget : (r.get (.string id)).perform w = (.ok p, w) := by rw [h.get, hp]
  obtain ⟨d, found, hdelete, _, hedited⟩ := h.delete_policy id
  unfold Registry.delete
  refine .bind (.of_ok hget ?_)
  simp only [hchild]
  refine .bind (.of_ok Step.perform_lift (.bind (.of_ok hdelete ?_)))
  exact .of_ok Step.perform_log ⟨hedited, rfl⟩

theorem Tables.store_policy_self : (t.store id q).policy id = some q := Function.update_self ..

/-- A new policy that is deleted again leaves nothing behind. -/
theorem Saved.undone (h : r.Holds w t) (hfresh : t.policy id = none) (hchild : p.child = .null)
    (hsaved : r.Saved w t id p w₁) (hkept : w₁.Kept w₂) : (r.delete (.string id)).Leads w₂
      (fun _ w' => r.Unchanged w w' ∧ w₂.Unasked w') (fun _ _ => False) := by
  obtain ⟨⟨q, hagrees, _, hstored⟩, ⟨v, hput⟩, hshelf⟩ := hsaved
  have hdelete := ((hstored.kept hkept).delete_unlinked Tables.store_policy_self
    (hagrees.child.trans hchild)).within delete_unasked
  refine .mono hdelete ?_ fun _ _ hfalse => hfalse.1
  rintro _ w' ⟨⟨herase, hshelf'⟩, hunasked⟩
  rw [hkept.disk] at herase
  -- The key was absent before, so the record that is erased is the one that was put last.
  have hedited := hput.trans herase
  obtain ⟨records, hbefore, hafter⟩ := hedited.records
  have hnone := h.policies.lookup_eq_none hfresh hbefore
  simp only [Function.comp_apply, Json.Fields.erase_put hnone] at hafter
  refine ⟨h.unchanged ⟨records, hbefore, hafter⟩ hedited.others ?_, hunasked⟩
  exact hshelf'.trans (hkept.shelf.trans hshelf)

/-- What becomes of another policy when the child with a given key gets a new one. -/
def Yields (w : World) (key : String) (p q : PolicyRecord) : Prop :=
  (¬ p.HasChild key ∧ q = p) ∨ p.HasChild key ∧
    ∃ now, w.Shows now ∧ q.Agrees { p with child := .null, updatedAt := .number now }

/-- A new policy was added for a child, linked and published. Nothing else changed, except that the
policy that had the child lost it. -/
structure Tables.Added (w : World) (t : Tables) (id key : String) (p : PolicyRecord)
    (t' : Tables) : Prop where
  fresh : t.policy id = none
  policy : t'.policy id = some p
  child : p.HasChild key
  active : p.isActive.truthy = true
  link : t'.link key = some { child := .string key, policy := .string id, parent := p.parent }
  published : ∃ document, p.document = some document ∧
    t'.published key = some { parent := p.parent, document }
  policies : ∀ id', id' ≠ id → Option.Rel (Yields w key) (t.policy id') (t'.policy id')
  links : ∀ key', key' ≠ key → t'.link key' = t.link key'
  publications : ∀ key', key' ≠ key → t'.published key' = t.published key'

namespace Tables

variable {key : String}

theorem store_policy_of_ne {other : String} (h : other ≠ id) :
    (t.store id q).policy other = t.policy other := by
  simp [store, h]

theorem Released.yields (h : (t.store id q).Released r w id key t') (ht : t.Settled key)
    {other : String} (hother : other ≠ id) :
    Option.Rel (Yields w key) (t.policy other) (t'.policy other) := by
  have hother' := store_policy_of_ne (t := t) (q := q) hother
  have hkept : (∀ p, t.policy other = some p → ¬ p.HasChild key) →
      Option.Rel (Yields w key) (t.policy other) (t.policy other) := by
    intro hnone
    cases hp : t.policy other with
    | none => exact .none
    | some p => exact .some (Or.inl ⟨hnone p hp, rfl⟩)
  rcases h with ⟨hall, rfl⟩ | ⟨taken, p, freed, now, ⟨l, hl, hpolicy⟩, _, hp, hnow,
    hagrees, _, rfl⟩
  · rw [hother']
    refine hkept fun p hp hchild => hother ?_
    exact hall _ other p (ht.governs hp hchild).link rfl (hother'.trans hp)
  · obtain ⟨_, p', hnamed, hgov⟩ := ht.of_link hl
    obtain rfl := Json.string.inj (hpolicy.symm.trans hnamed)
    by_cases htaken : other = taken
    · subst htaken
      obtain rfl := Option.some.inj (hp.symm.trans (hother'.trans hgov.policy))
      rw [hgov.policy, store_policy_self]
      exact .some (Or.inr ⟨hgov.child, now, hnow, hagrees⟩)
    · rw [store_policy_of_ne htaken, hother']
      exact hkept fun p hp hchild => htaken (hgov.only other p hp hchild)

end Tables

theorem Linked.added (ht : t.Valid r) (hfresh : t.policy id = none) {document : Document}
    (hchild : q.child = .null) (hactive : q.isActive.truthy = true)
    (hdocument : q.document = some document)
    (h : r.Linked w (t.store id q) (.string id) (.string address) p w') :
    ∃ t' q' now, r.Holds w' t' ∧ t.Added w id (Address.key address) q' t' ∧ w.Shows now ∧
      q'.Agrees p ∧ p = { q with child := .string address, updatedAt := .number now } := by
  obtain ⟨_, _, old, now, q', t₁, hid, haddress, hisAddress, hold, hnow, rfl, hagrees, hq',
    hreleased, hholds⟩ := h
  obtain rfl := Json.string.inj hid
  obtain rfl := Json.string.inj haddress
  obtain rfl : q = old := Option.some.inj (Tables.store_policy_self.symm.trans hold)
  have hdetach : (t.store id q).detach q (Address.key address) = t.store id q := by
    simp [Tables.detach, hchild]
  rw [hdetach] at hreleased
  have hchild' : q'.HasChild (Address.key address) :=
    hagrees.hasChild.mpr ⟨address, rfl, hisAddress, rfl⟩
  have hactive' : q'.isActive.truthy = true := hagrees.isActive.trans hactive
  have hdocument' : q'.document = some document := hagrees.document.trans hdocument
  have hpublication := PolicyRecord.publication?_of_document hdocument'
  rw [if_pos hactive'] at hpublication
  refine ⟨_, q', now, hholds, ?_, hnow, hagrees, rfl⟩
  refine ⟨hfresh, ?_, hchild', hactive',
    by rw [Tables.attach_link, if_pos rfl], ⟨document, hdocument', ?_⟩, ?_, ?_, ?_⟩
  · rw [Tables.attach_policy, Tables.store_policy_self]
  · rw [← hpublication]
    exact Tables.publish_published hchild'
  · intro other hother
    rw [Tables.attach_policy, Tables.store_policy_of_ne hother]
    exact hreleased.yields (ht.settled _) hother
  · intro key hkey
    rw [Tables.attach_link, if_neg hkey, hreleased.link_eq]
    rfl
  · intro key hkey
    have hnot : ¬ q'.HasChild key := fun hq' => hkey (hq'.unique hchild')
    have hpublished := congrFun hreleased.published_eq key
    exact (Tables.publish_published_of_not hq'.child hnot).trans hpublished

end Registry

end Allowance
