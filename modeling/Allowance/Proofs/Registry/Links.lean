import Allowance.Proofs.Registry.Reachable

/-! # Links, policies and published documents

In a reachable world the three sections fit together. A link is kept under the key of its child and
names the one policy that has this child, and what is published for the child is the document of
this policy as long as it is active.
-/

namespace Allowance

def Json.IsLink (v : Json) (key id : String) (p : PolicyRecord) : Prop :=
  LinkRecord.ofJson v = .ok { child := .string key, policy := .string id, parent := p.parent }

namespace Registry

variable {r : Registry} {w : World} {t : Tables} {id key : String} {p : PolicyRecord}

/-- The links fit the stored policies and the published documents. -/
structure Fits (r : Registry) (w : World) (links : Json.Fields) : Prop where
  /-- A link is kept under a lowercase address and names a stored policy that has this child. -/
  link : ∀ key v, links.lookup key = some v →
    Address.isAddress key = true ∧ Address.key key = key ∧
      ∃ id p, v.IsLink key id p ∧ r.Stores w id p ∧ p.HasChild key
  /-- A policy that has a child is linked to it. -/
  policy : ∀ id p, r.Stores w id p → p.child ≠ .null →
    ∃ key v, p.HasChild key ∧ links.lookup key = some v ∧ v.IsLink key id p
  /-- A policy is named by one link at most. -/
  oneChild : ∀ key v key' v' id p p', links.lookup key = some v → v.IsLink key id p →
    links.lookup key' = some v' → v'.IsLink key' id p' → key = key'
  /-- A child has one policy at most. -/
  onePolicy : ∀ id p id' p' key, r.Stores w id p → p.HasChild key →
    r.Stores w id' p' → p'.HasChild key → id = id'
  /-- The document of the linked policy is published as long as the policy is active. -/
  published : ∀ key, ∃ entry, (r.shelf.entry? key).perform w = (.ok entry, w) ∧
    (entry.isSome = true ↔ ∃ v id p, links.lookup key = some v ∧ v.IsLink key id p ∧
      r.Stores w id p ∧ p.isActive.truthy = true) ∧
    ∀ pub, entry = some pub → ∀ v id p, links.lookup key = some v → v.IsLink key id p →
      r.Stores w id p → pub.parent = p.parent ∧ p.document = some pub.document

theorem Tables.Governs.isAddress (h : t.Governs id p key) :
    Address.isAddress key = true ∧ Address.key key = key := by
  obtain ⟨address, _, haddress, rfl⟩ := h.child
  exact ⟨Address.isAddress_key haddress, Address.key_key haddress⟩

theorem isLink_id_eq {v : Json} {key' id' : String} {p' : PolicyRecord}
    (h : v.IsLink key id p) (h' : v.IsLink key' id' p') : id = id' := by
  have heq := Except.ok.inj (h.symm.trans h')
  simp only [LinkRecord.mk.injEq, Json.string.injEq] at heq
  exact heq.2.1

section Lookup

variable {links : Json.Fields} (hlinks : ∀ key, Option.Rel
  (fun v l => v ≠ .null ∧ LinkRecord.ofJson v = .ok l) (links.lookup key) (t.link key))

include hlinks

theorem Tables.Governs.lookup (h : t.Governs id p key) :
    ∃ v, links.lookup key = some v ∧ v.IsLink key id p := by
  have hrel := hlinks key
  rw [h.link] at hrel
  cases hv : links.lookup key with
  | none => simp [hv] at hrel
  | some v =>
    rw [hv, Option.rel_some_some] at hrel
    exact ⟨v, rfl, hrel.2⟩

theorem Tables.Valid.governs_of_lookup (ht : t.Valid r) {v : Json}
    (hv : links.lookup key = some v) : ∃ id p, v.IsLink key id p ∧ t.Governs id p key := by
  have hrel := hlinks key
  rw [hv] at hrel
  cases hl : t.link key with
  | none => simp [hl] at hrel
  | some l =>
    obtain ⟨id, p, _, hgov⟩ := (ht.settled key).of_link hl
    obtain rfl := Option.some.inj (hl.symm.trans hgov.link)
    rw [hl, Option.rel_some_some] at hrel
    exact ⟨id, p, hrel.2, hgov⟩

theorem Tables.Valid.governs_of_isLink (ht : t.Valid r) {v : Json}
    (hv : links.lookup key = some v) (hlink : v.IsLink key id p) :
    ∃ p', t.Governs id p' key := by
  obtain ⟨id', p', hlink', hgov⟩ := ht.governs_of_lookup hlinks hv
  obtain rfl := isLink_id_eq hlink hlink'
  exact ⟨p', hgov⟩

theorem Tables.Valid.governs_of_stored (ht : t.Valid r) {v : Json}
    (hv : links.lookup key = some v) (hlink : v.IsLink key id p) (hp : t.policy id = some p) :
    t.Governs id p key := by
  obtain ⟨p', hgov⟩ := ht.governs_of_isLink hlinks hv hlink
  obtain rfl := Option.some.inj (hp.symm.trans hgov.policy)
  exact hgov

end Lookup

/-- In a reachable world links, policies and published documents fit together. -/
theorem Reachable.fits (h : r.Reachable w) :
    ∃ links, State.Section w.disk r.path State.links links ∧ r.Fits w links := by
  obtain ⟨t, hholds, ht⟩ := h.consistent
  obtain ⟨links, hsection, hlinks⟩ := hholds.links
  refine ⟨links, hsection, ?_, ?_, ?_, ?_, ?_⟩
  · intro key v hv
    obtain ⟨id, p, hlink, hgov⟩ := ht.governs_of_lookup hlinks hv
    obtain ⟨haddress, hkey⟩ := hgov.isAddress
    exact ⟨haddress, hkey, id, p, hlink, hholds.stores_iff.mpr hgov.policy, hgov.child⟩
  · intro id p hp hchild
    have hp := hholds.stores_iff.mp hp
    obtain ⟨key, hkey⟩ := (ht.sound id p hp).child.resolve_left hchild
    obtain ⟨v, hv, hlink⟩ := ((ht.settled key).governs hp hkey).lookup hlinks
    exact ⟨key, v, hkey, hv, hlink⟩
  · intro key v key' v' id p p' hv hlink hv' hlink'
    obtain ⟨q, hgov⟩ := ht.governs_of_isLink hlinks hv hlink
    obtain ⟨q', hgov'⟩ := ht.governs_of_isLink hlinks hv' hlink'
    obtain rfl := Option.some.inj (hgov.policy.symm.trans hgov'.policy)
    exact hgov.child.unique hgov'.child
  · intro id p id' p' key hp hchild hp' hchild'
    have hgov := (ht.settled key).governs (hholds.stores_iff.mp hp) hchild
    exact (hgov.only id' p' (hholds.stores_iff.mp hp') hchild').symm
  · intro key
    refine ⟨t.published key, hholds.entry key, ⟨fun hsome => ?_, ?_⟩, ?_⟩
    · rcases ht.settled key with hfree | ⟨id, p, hgov⟩
      · simp [hfree.published] at hsome
      · rw [hgov.published, (ht.sound id p hgov.policy).isSome_publication?] at hsome
        obtain ⟨v, hv, hlink⟩ := hgov.lookup hlinks
        exact ⟨v, id, p, hv, hlink, hholds.stores_iff.mpr hgov.policy, hsome⟩
    · rintro ⟨v, id, p, hv, hlink, hp, hactive⟩
      have hgov := ht.governs_of_stored hlinks hv hlink (hholds.stores_iff.mp hp)
      rwa [hgov.published, (ht.sound id p hgov.policy).isSome_publication?]
    · intro pub hpub v id p hv hlink hp
      have hgov := ht.governs_of_stored hlinks hv hlink (hholds.stores_iff.mp hp)
      rw [hgov.published] at hpub
      exact (PolicyRecord.publication?_eq_some.mp hpub).2

theorem household_fits : ∃ links v, State.Section evening.disk household.path State.links links ∧
    household.Fits evening links ∧ links.lookup daughter = some v := by
  obtain ⟨links, hsection, hfits⟩ := Reachable.fits household_reachable
  obtain ⟨t, q, hholds, _, hgov, _⟩ := household_governs
  have hchild : q.child ≠ .null := fun hnull => Tables.not_hasChild_of_null hnull hgov.child
  obtain ⟨key, v, hkey, hv, _⟩ :=
    hfits.policy "weekly" q (hholds.stores_iff.mpr hgov.policy) hchild
  obtain rfl := hkey.unique hgov.child
  exact ⟨links, v, hsection, hfits, hv⟩

end Registry

end Allowance
