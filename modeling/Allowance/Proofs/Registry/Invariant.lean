import Allowance.Proofs.Registry.Operations

/-! # The tables stay in step

Tables are valid when every stored policy is sound and every child is settled: it has no policy, no
link and no document, or it has exactly one policy, a link to it, and the document of that policy if
it is active. Each change that an operation makes keeps tables valid.
-/

namespace Allowance

open PolicyRecord

namespace Registry

namespace Tables

structure Free (t : Tables) (key : String) : Prop where
  policy : ∀ id p, t.policy id = some p → ¬ p.HasChild key
  link : t.link key = none
  published : t.published key = none

/-- One policy governs the child with a given key, and the tables agree on it. -/
structure Governs (t : Tables) (id : String) (p : PolicyRecord) (key : String) : Prop where
  policy : t.policy id = some p
  child : p.HasChild key
  only : ∀ id' p', t.policy id' = some p' → p'.HasChild key → id' = id
  link : t.link key = some { child := .string key, policy := .string id, parent := p.parent }
  published : t.published key = p.publication?

def Settled (t : Tables) (key : String) : Prop := t.Free key ∨ ∃ id p, t.Governs id p key

structure Valid (r : Registry) (t : Tables) : Prop where
  sound : ∀ id p, t.policy id = some p → p.Sound r id
  settled : ∀ key, t.Settled key

variable {r : Registry} {t t' : Tables} {id key : String} {p old q : PolicyRecord}

theorem Settled.governs (h : t.Settled key) (hp : t.policy id = some p) (hchild : p.HasChild key) :
    t.Governs id p key := by
  rcases h with hfree | ⟨id', p', hgov⟩
  · exact absurd hchild (hfree.policy id p hp)
  · obtain rfl := hgov.only id p hp hchild
    obtain rfl := Option.some.inj (hp.symm.trans hgov.policy)
    exact hgov

theorem Settled.of_link (h : t.Settled key) {l : LinkRecord} (hl : t.link key = some l) :
    ∃ id p, l.policy = .string id ∧ t.Governs id p key := by
  rcases h with hfree | ⟨id, p, hgov⟩
  · rw [hfree.link] at hl
    cases hl
  · obtain rfl := Option.some.inj (hl.symm.trans hgov.link)
    exact ⟨id, p, rfl, hgov⟩

theorem Valid.link_names (h : t.Valid r) :
    ∀ key l, t.link key = some l → ∃ other, l.policy = .string other := by
  intro key l hl
  obtain ⟨id, p, hid, hgov⟩ := (h.settled key).of_link hl
  exact ⟨id, hid⟩

/-- A change does not touch the child with a given key: the same policies have it, and its link and
what is published for it are the same. -/
structure Untouched (t t' : Tables) (key : String) : Prop where
  policy : ∀ id p, p.HasChild key → (t'.policy id = some p ↔ t.policy id = some p)
  link : t'.link key = t.link key
  published : t'.published key = t.published key

theorem Untouched.refl (t : Tables) (key : String) : t.Untouched t key :=
  ⟨fun _ _ _ => Iff.rfl, rfl, rfl⟩

theorem Untouched.free (h : t.Untouched t' key) (hfree : t.Free key) : t'.Free key where
  policy id p hp hchild := hfree.policy id p ((h.policy id p hchild).mp hp) hchild
  link := h.link.trans hfree.link
  published := h.published.trans hfree.published

theorem Untouched.governs (h : t.Untouched t' key) (hgov : t.Governs id p key) :
    t'.Governs id p key where
  policy := (h.policy id p hgov.child).mpr hgov.policy
  child := hgov.child
  only id' p' hp' hchild := hgov.only id' p' ((h.policy id' p' hchild).mp hp') hchild
  link := h.link.trans hgov.link
  published := h.published.trans hgov.published

/-- A child that a change does not touch stays settled. -/
theorem Untouched.settled (h : t.Untouched t' key) (hsettled : t.Settled key) : t'.Settled key := by
  rcases hsettled with hfree | ⟨id, p, hgov⟩
  · exact Or.inl (h.free hfree)
  · exact Or.inr ⟨id, p, h.governs hgov⟩

theorem sound_store (h : ∀ id p, t.policy id = some p → p.Sound r id) (hq : q.Sound r id) :
    ∀ id' p, (t.store id q).policy id' = some p → p.Sound r id' := by
  intro id' p hp
  simp only [store, Function.update_apply] at hp
  split at hp
  · rename_i hid
    obtain rfl := Option.some.inj hp
    exact hid ▸ hq
  · exact h id' p hp

theorem publish_policy : (t.publish p).policy = t.policy := by
  unfold publish
  split <;> rfl

theorem publish_link : (t.publish p).link = t.link := by
  unfold publish
  split <;> rfl

theorem publish_published (h : p.HasChild key) : (t.publish p).published key = p.publication? := by
  obtain ⟨address, hchild, _, rfl⟩ := h
  simp [publish, hchild]

theorem publish_published_of_not (hp : p.child = .null ∨ ∃ key, p.HasChild key)
    (h : ¬ p.HasChild key) : (t.publish p).published key = t.published key := by
  rcases hp with hnull | ⟨key', address, hchild, haddress, rfl⟩
  · simp [publish, hnull]
  · have hne : key ≠ Address.key address := by
      rintro rfl
      exact h ⟨address, hchild, haddress, rfl⟩
    simp [publish, hchild, hne]

theorem store_hasChild (hold : ∀ p, t.policy id = some p → ¬ p.HasChild key)
    (hq : ¬ q.HasChild key) (id' : String) (p : PolicyRecord) (hp : p.HasChild key) :
    (t.store id q).policy id' = some p ↔ t.policy id' = some p := by
  simp only [store, Function.update_apply]
  split
  · rename_i hid
    subst hid
    constructor
    · intro h
      obtain rfl := Option.some.inj h
      exact absurd hp hq
    · exact fun h => absurd hp (hold p h)
  · rfl

theorem not_hasChild_of_null (h : p.child = .null) : ¬ p.HasChild key := by
  rintro ⟨_, hchild, _⟩
  simp [h] at hchild

theorem untouched_create (hfresh : t.policy id = none) (hchild : q.child = .null) (key : String) :
    t.Untouched (t.store id q) key :=
  ⟨store_hasChild (by simp [hfresh]) (not_hasChild_of_null hchild), rfl, rfl⟩

theorem Valid.create (h : t.Valid r) (hfresh : t.policy id = none) (hq : q.Sound r id)
    (hchild : q.child = .null) : (t.store id q).Valid r :=
  ⟨sound_store h.sound hq, fun key => (untouched_create hfresh hchild key).settled (h.settled key)⟩

theorem untouched_update (hold : t.policy id = some old) (hq : q.Sound r id)
    (hchild : q.child = old.child) (hkey : ¬ old.HasChild key) :
    t.Untouched ((t.store id q).publish q) key := by
  have hnot : ¬ q.HasChild key := by simpa only [HasChild, hchild] using hkey
  refine ⟨?_, by rw [publish_link]; rfl, publish_published_of_not hq.child hnot⟩
  rw [publish_policy]
  refine store_hasChild (fun p hp => ?_) hnot
  obtain rfl := Option.some.inj (hold.symm.trans hp)
  exact hkey

theorem Valid.update (h : t.Valid r) (hold : t.policy id = some old) (hq : q.Sound r id)
    (hchild : q.child = old.child) (hparent : q.parent = old.parent) :
    ((t.store id q).publish q).Valid r := by
  refine ⟨by rw [publish_policy]; exact sound_store h.sound hq, fun key => ?_⟩
  have hsame : q.HasChild key ↔ old.HasChild key := by simp only [HasChild, hchild]
  by_cases hkey : q.HasChild key
  · have hgov := (h.settled key).governs hold (hsame.mp hkey)
    refine Or.inr ⟨id, q, ?_, hkey, fun id' p' hp' hchild' => ?_, ?_, publish_published hkey⟩
    · simp [publish_policy, store]
    · simp only [publish_policy, store, Function.update_apply] at hp'
      split at hp'
      · assumption
      · exact hgov.only id' p' hp' hchild'
    · rw [publish_link, hparent]
      exact hgov.link
  · exact (untouched_update hold hq hchild (hsame.not.mp hkey)).settled (h.settled key)

theorem unlink_policy {child : Json} : (t.unlink child).policy = t.policy := by
  unfold unlink
  split <;> rfl

theorem unlink_of_hasChild (h : p.HasChild key) :
    (t.unlink p.child).link key = none ∧ (t.unlink p.child).published key = none := by
  obtain ⟨address, hchild, _, rfl⟩ := h
  simp [unlink, hchild]

theorem unlink_of_not_hasChild (hp : p.child = .null ∨ ∃ key, p.HasChild key)
    (h : ¬ p.HasChild key) : (t.unlink p.child).link key = t.link key ∧
      (t.unlink p.child).published key = t.published key := by
  rcases hp with hnull | ⟨key', address, hchild, haddress, rfl⟩
  · simp [unlink, hnull]
  · have hne : key ≠ Address.key address := by
      rintro rfl
      exact h ⟨address, hchild, haddress, rfl⟩
    simp [unlink, hchild, hne]

theorem policy_of_drop {child : Json} {id' : String} :
    ((t.unlink child).drop id).policy id' = some p ↔ id' ≠ id ∧ t.policy id' = some p := by
  simp only [drop, unlink_policy, Function.update_apply]
  split <;> simp_all

theorem untouched_delete (hchild : old.child = .null ∨ ∃ key, old.HasChild key)
    (hold : t.policy id = some old) (hkey : ¬ old.HasChild key) :
    t.Untouched ((t.unlink old.child).drop id) key := by
  obtain ⟨hlink, hpublished⟩ := unlink_of_not_hasChild (t := t) hchild hkey
  refine ⟨fun id' p hp => ?_, hlink, hpublished⟩
  rw [policy_of_drop, and_iff_right_iff_imp]
  rintro hpolicy rfl
  obtain rfl := Option.some.inj (hold.symm.trans hpolicy)
  exact hkey hp

theorem Valid.delete (h : t.Valid r) (hold : t.policy id = some old) :
    ((t.unlink old.child).drop id).Valid r := by
  have hchild := (h.sound id old hold).child
  refine ⟨fun id' p hp => h.sound id' p (policy_of_drop.mp hp).2, fun key => ?_⟩
  by_cases hkey : old.HasChild key
  · have hgov := (h.settled key).governs hold hkey
    obtain ⟨hlink, hpublished⟩ := unlink_of_hasChild (t := t) hkey
    refine Or.inl ⟨fun id' p hp hchild => ?_, hlink, hpublished⟩
    obtain ⟨hne, hpolicy⟩ := policy_of_drop.mp hp
    exact hne (hgov.only id' p hpolicy hchild)
  · exact (untouched_delete hchild hold hkey).settled (h.settled key)

section Link

variable {key₀ : String} {t₁ : Tables}

theorem detach_of_hasChild (h : p.HasChild key) : t.detach p key = t := by
  obtain ⟨address, hchild, _, rfl⟩ := h
  simp [detach, hchild]

theorem detach_of_not_hasChild (hp : p.child = .null ∨ ∃ key, p.HasChild key)
    (h : ¬ p.HasChild key) : t.detach p key = t.unlink p.child := by
  rcases hp with hnull | ⟨key', address, hchild, haddress, rfl⟩
  · simp [detach, unlink, hnull]
  · have hne : Address.key address ≠ key := by
      rintro rfl
      exact h ⟨address, hchild, haddress, rfl⟩
    simp [detach, hchild, hne]

theorem detach_freed (hp : p.child = .null ∨ ∃ key, p.HasChild key) (h : p.HasChild key)
    (hne : key ≠ key₀) :
    (t.detach p key₀).link key = none ∧ (t.detach p key₀).published key = none := by
  have hnot : ¬ p.HasChild key₀ := fun h₀ => hne (h.unique h₀)
  rw [detach_of_not_hasChild hp hnot]
  exact unlink_of_hasChild h

theorem detach_kept (hp : p.child = .null ∨ ∃ key, p.HasChild key)
    (h : ¬ p.HasChild key ∨ key = key₀) : (t.detach p key₀).link key = t.link key ∧
      (t.detach p key₀).published key = t.published key := by
  by_cases h₀ : p.HasChild key₀
  · rw [detach_of_hasChild h₀]
    exact ⟨rfl, rfl⟩
  · rw [detach_of_not_hasChild hp h₀]
    refine unlink_of_not_hasChild hp ?_
    rcases h with h | rfl
    · exact h
    · exact h₀

theorem Released.link_eq (h : t.Released r w id key₀ t₁) : t₁.link = t.link := by
  rcases h with ⟨_, rfl⟩ | ⟨_, _, _, _, _, _, _, _, _, _, rfl⟩ <;> rfl

theorem Released.published_eq (h : t.Released r w id key₀ t₁) : t₁.published = t.published := by
  rcases h with ⟨_, rfl⟩ | ⟨_, _, _, _, _, _, _, _, _, _, rfl⟩ <;> rfl

theorem Released.sound (h : t.Released r w id key₀ t₁)
    (hsound : ∀ id p, t.policy id = some p → p.Sound r id) :
    ∀ id p, t₁.policy id = some p → p.Sound r id := by
  rcases h with ⟨_, rfl⟩ | ⟨other, p, q, _, _, _, _, _, _, hq, rfl⟩
  · exact hsound
  · exact sound_store hsound hq

theorem Released.hasChild (h : t.Released r w id key₀ t₁)
    (hlink : ∀ l other p, t.link key₀ = some l → l.policy = .string other →
      t.policy other = some p → p.HasChild key₀)
    (hne : key ≠ key₀) (id' : String) (p : PolicyRecord) (hp : p.HasChild key) :
    t₁.policy id' = some p ↔ t.policy id' = some p := by
  rcases h with ⟨_, rfl⟩ | ⟨other, p₀, q, _, ⟨l, hl, hother⟩, _, hp₀, _, hagrees, _, rfl⟩
  · rfl
  · refine store_hasChild (fun p' hp' hchild => ?_) (not_hasChild_of_null hagrees.child) id' p hp
    exact hne (hchild.unique (hlink l other p' hl hother hp'))

theorem Released.only (h : t.Released r w id key₀ t₁)
    (hlink : ∀ id' p, t.policy id' = some p → p.HasChild key₀ →
      ∃ l, t.link key₀ = some l ∧ l.policy = .string id')
    {id' : String} (hp : t₁.policy id' = some p) (hchild : p.HasChild key₀) : id' = id := by
  rcases h with ⟨hall, rfl⟩ | ⟨other, p₀, q, _, ⟨l, hl, hother⟩, _, _, _, hagrees, _, rfl⟩
  · obtain ⟨l, hl, hpolicy⟩ := hlink id' p hp hchild
    exact hall l id' p hl hpolicy hp
  · simp only [store, Function.update_apply] at hp
    split at hp
    · obtain rfl := Option.some.inj hp
      exact absurd hchild (not_hasChild_of_null hagrees.child)
    · obtain ⟨l', hl', hpolicy⟩ := hlink id' p hp hchild
      obtain rfl := Option.some.inj (hl.symm.trans hl')
      rw [hother] at hpolicy
      exact absurd (Json.string.inj hpolicy).symm ‹_›

theorem attach_policy : (t.attach id key₀ q).policy = (t.store id q).policy := by
  rw [attach, publish_policy]

theorem attach_link : (t.attach id key₀ q).link key =
    if key = key₀ then some { child := .string key₀, policy := .string id, parent := q.parent }
    else t.link key := by
  rw [attach, publish_link]
  exact Function.update_apply ..

theorem Valid.others_of_released (h : t.Valid r) (hold : t.policy id = some old)
    (hreleased : (t.detach old key₀).Released r w id key₀ t₁) (hne : key ≠ key₀) (id' : String)
    (p : PolicyRecord) (hp : p.HasChild key) :
    t₁.policy id' = some p ↔ t.policy id' = some p := by
  rw [hreleased.hasChild ?_ hne id' p hp, detach_policy]
  intro l other p' hl hother hp'
  rw [(detach_kept (t := t) (h.sound id old hold).child (Or.inr rfl)).1] at hl
  rw [detach_policy] at hp'
  obtain ⟨id'', p'', hpolicy, hgov⟩ := (h.settled key₀).of_link hl
  obtain rfl := Json.string.inj (hother.symm.trans hpolicy)
  obtain rfl := Option.some.inj (hp'.symm.trans hgov.policy)
  exact hgov.child

theorem published_of_attach (hq : q.Sound r id) (hqkey : ¬ q.HasChild key)
    (hreleased : (t.detach old key₀).Released r w id key₀ t₁) :
    (t₁.attach id key₀ q).published key = (t.detach old key₀).published key := by
  rw [← hreleased.published_eq]
  exact publish_published_of_not hq.child hqkey

theorem link_of_attach (hne : key ≠ key₀)
    (hreleased : (t.detach old key₀).Released r w id key₀ t₁) :
    (t₁.attach id key₀ q).link key = (t.detach old key₀).link key := by
  rw [attach_link, if_neg hne, hreleased.link_eq]

theorem untouched_link (h : t.Valid r) (hold : t.policy id = some old) (hq : q.Sound r id)
    (hchild : q.HasChild key₀) (hreleased : (t.detach old key₀).Released r w id key₀ t₁)
    (hkey : ¬ old.HasChild key) (hne : key ≠ key₀) : t.Untouched (t₁.attach id key₀ q) key := by
  have hqkey : ¬ q.HasChild key := fun hqkey => hne (hqkey.unique hchild)
  obtain ⟨hlink, hpublished⟩ : (t.detach old key₀).link key = t.link key ∧
      (t.detach old key₀).published key = t.published key :=
    detach_kept (h.sound id old hold).child (Or.inl hkey)
  refine ⟨fun id' p hp => ?_, (link_of_attach hne hreleased).trans hlink,
    (published_of_attach hq hqkey hreleased).trans hpublished⟩
  rw [attach_policy, store_hasChild ?_ hqkey id' p hp,
    h.others_of_released hold hreleased hne id' p hp]
  intro p' hp' hchild'
  have hp' := (h.others_of_released hold hreleased hne id p' hchild').mp hp'
  obtain rfl := Option.some.inj (hold.symm.trans hp')
  exact hkey hchild'

/-- Linking a policy to a child settles this child, the old child of the policy and, by leaving
them alone, all others. -/
theorem Valid.link (h : t.Valid r) (hold : t.policy id = some old) (hq : q.Sound r id)
    (hchild : q.HasChild key₀) (hreleased : (t.detach old key₀).Released r w id key₀ t₁) :
    (t₁.attach id key₀ q).Valid r := by
  have hsound₁ : ∀ id p, t₁.policy id = some p → p.Sound r id :=
    hreleased.sound (by rw [detach_policy]; exact h.sound)
  refine ⟨by rw [attach_policy]; exact sound_store hsound₁ hq, fun key => ?_⟩
  by_cases hne : key = key₀
  · -- The linked child has the policy, and the release took it from any other.
    subst hne
    refine Or.inr ⟨id, q, by simp [attach_policy, store], hchild, fun id' p hp hp' => ?_,
      by rw [attach_link, if_pos rfl], publish_published hchild⟩
    simp only [attach_policy, store, Function.update_apply] at hp
    split at hp
    · assumption
    · refine hreleased.only (fun id'' p'' hp'' hchild'' => ?_) hp hp'
      rw [detach_policy] at hp''
      have hgov := (h.settled key).governs hp'' hchild''
      have hkept : (t.detach old key).link key = t.link key :=
        (detach_kept (h.sound id old hold).child (Or.inr rfl)).1
      exact ⟨_, hkept.trans hgov.link, rfl⟩
  · by_cases hkey : old.HasChild key
    · -- The old child of the policy is free: only this policy had it.
      have hqkey : ¬ q.HasChild key := fun hqkey => hne (hqkey.unique hchild)
      obtain ⟨hnolink, hnothing⟩ := detach_freed (t := t) (h.sound id old hold).child hkey hne
      refine Or.inl ⟨fun id' p hp hp' => ?_, (link_of_attach hne hreleased).trans hnolink,
        (published_of_attach hq hqkey hreleased).trans hnothing⟩
      simp only [attach_policy, store, Function.update_apply] at hp
      split at hp
      · obtain rfl := Option.some.inj hp
        exact hqkey hp'
      · have hgov := (h.settled key).governs hold hkey
        have hp := (h.others_of_released hold hreleased hne id' p hp').mp hp
        exact ‹¬ id' = id› (hgov.only id' p hp hp')
    · exact (untouched_link h hold hq hchild hreleased hkey hne).settled (h.settled key)

end Link

end Tables

end Registry

end Allowance
