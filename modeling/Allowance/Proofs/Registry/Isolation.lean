import Allowance.Proofs.Registry.Authority

/-! # Children are isolated from each other

An operation concerns a child if it names the policy of this child, or links the child to a policy.
Whether it succeeds or fails, it spares every other child: its link, its policy and what is
published for it are as they were, so both checks decide all its requests as before.
-/

namespace Allowance

def Step.SameIn {α : Type} (step : Step α) (w w' : World) : Prop :=
  ∃ a u u', step.perform w = (.ok a, u) ∧ step.perform w' = (.ok a, u')

namespace Registry

variable {r : Registry} {w w' : World} {t t' : Tables} {c id : String} {p old : PolicyRecord}

/-- The id is that of the policy that has a child, in whatever letter case it is written. -/
def Serves (r : Registry) (w : World) (id : Json) (c : String) : Prop :=
  ∃ key p a, id = .string key ∧ r.Stores w key p ∧ p.child = .string a ∧
    Address.key a = Address.key c

/-- The operation names the policy of a child, or links the child. -/
def Concerns (r : Registry) (w : World) (c : String) : Operation → Prop
  | .create _ _ => False
  | .update id _ => r.Serves w id c
  | .toggle id _ => r.Serves w id c
  | .setActive id _ => r.Serves w id c
  | .link id child =>
    r.Serves w id c ∨ ∃ a, child = .string a ∧ Address.key a = Address.key c
  | .delete id => r.Serves w id c

/-- In both worlds the same is on record for a child, and its requests are decided alike. -/
structure Spares (r : Registry) (w w' : World) (c : String) : Prop where
  link : (r.link? (.string c)).SameIn w w'
  policy : (r.childPolicy? (.string c)).SameIn w w'
  published : (r.shelf.get? (.string c)).SameIn w w'
  advised : ∀ tx now, (r.preflight (.string c) tx (.number now)).SameIn w w'
  decided : ∀ tx now,
    (r.shelf.authorize (.string c) tx).SameIn (w.atTime now) (w'.atTime now)

theorem Holds.serves (h : r.Holds w t) (hold : t.policy id = some old)
    (hchild : old.HasChild (Address.key c)) : r.Serves w (.string id) c := by
  obtain ⟨a, ha, _, hkey⟩ := hchild
  exact ⟨id, old, a, rfl, h.stores_iff.mpr hold, ha, hkey⟩

/-- A child that is not touched is spared: what is asked about it is answered from its own entries
in the tables. -/
theorem Holds.spares_of_untouched (h : r.Holds w t) (h' : r.Holds w' t') (ht : t.Valid r)
    (hu : t.Untouched t' (Address.key c)) : r.Spares w w' c := by
  have hlink := h.link? (c := c)
  have hlink' := h'.link? (c := c)
  rw [hu.link] at hlink'
  have hget := h.entry (Address.key c)
  have hget' := h'.entry (Address.key c)
  rw [hu.published] at hget'
  rw [← Shelf.get?_eq] at hget hget'
  have hdecided : ∀ tx now,
      (r.shelf.authorize (.string c) tx).SameIn (w.atTime now) (w'.atTime now) := by
    intro tx now
    obtain ⟨u, hauthorize⟩ := (h.atTime now).authorize c tx
    obtain ⟨u', hauthorize'⟩ := (h'.atTime now).authorize c tx
    rw [hu.published] at hauthorize'
    exact ⟨_, u, u', hauthorize, hauthorize'⟩
  rcases ht.settled (Address.key c) with hfree | ⟨id, p, hgov⟩
  · have hnone := h.childPolicy?_of_free hfree
    have hnone' := h'.childPolicy?_of_free (hu.free hfree)
    refine ⟨⟨_, _, _, hlink, hlink'⟩, ⟨_, _, _, hnone, hnone'⟩, ⟨_, _, _, hget, hget'⟩, ?_,
      hdecided⟩
    exact fun tx now => ⟨_, _, _, Step.perform_bind_of_ok hnone, Step.perform_bind_of_ok hnone'⟩
  · obtain ⟨d, hd⟩ := (ht.sound id p hgov.policy).document
    have hgov' := hu.governs hgov
    refine ⟨⟨_, _, _, hlink, hlink'⟩, ⟨_, _, _, h.childPolicy?_of_governs hgov,
      h'.childPolicy?_of_governs hgov'⟩, ⟨_, _, _, hget, hget'⟩, fun tx now => ?_, hdecided⟩
    exact ⟨_, _, _, h.preflight hgov hd tx now, h'.preflight hgov' hd tx now⟩

theorem Updated.untouched {v : Json} {changes : Changes} {now : Number} (h : r.Holds w t)
    (hu : r.Updated t v changes now p w') (hc : ¬ r.Serves w v c) :
    ∃ t', r.Holds w' t' ∧ t.Untouched t' (Address.key c) := by
  obtain ⟨key, old, changed, document, q, rfl, hold, hchanged, rfl, hagrees, hq, hholds⟩ := hu
  have hchild : q.child = old.child :=
    hagrees.child.trans (Changes.keeps_of_apply hchanged).child
  exact ⟨_, hholds,
    Tables.untouched_update hold hq hchild fun hkey => hc (h.serves hold hkey)⟩

theorem Linked.untouched {v child : Json} (h : r.Holds w t) (ht : t.Valid r)
    (hl : r.Linked w t v child p w') (hc : ¬ r.Concerns w c (.link v child)) :
    ∃ t', r.Holds w' t' ∧ t.Untouched t' (Address.key c) := by
  obtain ⟨id, address, old, now, q, t₁, rfl, rfl, haddress, hold, _, rfl, hagrees, hq, hreleased,
    hholds⟩ := hl
  have hchild : q.HasChild (Address.key address) := ⟨address, hagrees.child, haddress, rfl⟩
  refine ⟨_, hholds,
    Tables.untouched_link ht hold hq hchild hreleased (fun hkey => ?_) fun heq => ?_⟩
  · exact hc (Or.inl (h.serves hold hkey))
  · exact hc (Or.inr ⟨address, rfl, heq.symm⟩)

theorem Holds.after_untouched (h : r.Holds w t) (ht : t.Valid r) {o : Operation}
    (hfresh : r.FreshFor w o) (hc : ¬ r.Concerns w c o) :
    ∃ t', r.Holds (r.after w o) t' ∧ t.Untouched t' (Address.key c) := by
  have hfailed : ∀ (e : Fault) w', w.Kept w' →
      ∃ t', r.Holds w' t' ∧ t.Untouched t' (Address.key c) :=
    fun _ _ hkept => ⟨t, h.kept hkept, .refl t _⟩
  cases o with
  | create parent draft =>
    have hnone : t.policy (w.sources.id w.ids) = none :=
      Option.eq_none_iff_forall_ne_some.mpr fun p hp => hfresh p (h.stores_iff.mpr hp)
    refine h.create.world (fun p w' => ?_) hfailed
    rintro ⟨hdrafted, ⟨q, hagrees, _, hholds⟩, _, _⟩
    have hchild := hagrees.child.trans hdrafted.spec.2.1
    exact ⟨_, hholds, Tables.untouched_create hnone hchild _⟩
  | update id changes =>
    exact (h.update ht.sound).world (fun _ _ hu => hu.untouched h hc) hfailed
  | toggle id entry =>
    refine (h.toggle ht.sound).world ?_ hfailed
    rintro p w' ⟨_, _, _, _, _, hu⟩
    exact hu.untouched h hc
  | setActive id active =>
    exact (h.update ht.sound).world (fun _ _ hu => hu.untouched h hc) hfailed
  | link id child =>
    exact (h.link ht.sound ht.link_names).world (fun _ _ hl => hl.untouched h ht hc) hfailed
  | delete id =>
    refine (h.delete ht.sound).world ?_ hfailed
    rintro _ w' ⟨key, old, rfl, hold, hholds⟩
    exact ⟨_, hholds, Tables.untouched_delete (ht.sound key old hold).child hold
      fun hkey => hc (h.serves hold hkey)⟩

/-- In a reachable world an operation spares every child that it does not concern, whether it
succeeds or fails, and the creation of a policy spares every child. -/
theorem Reachable.spares (h : r.Reachable w) (o : Operation) (hfresh : r.FreshFor w o) :
    (∀ c, ¬ r.Concerns w c o → r.Spares w (r.after w o) c) ∧
      ∀ parent draft, o = .create parent draft → ∀ c, r.Spares w (r.after w o) c := by
  obtain ⟨t, hholds, ht⟩ := h.consistent
  have hspares : ∀ c, ¬ r.Concerns w c o → r.Spares w (r.after w o) c := by
    intro c hc
    obtain ⟨t', hholds', hu⟩ := hholds.after_untouched ht hfresh hc
    exact hholds.spares_of_untouched hholds' ht hu
  refine ⟨hspares, ?_⟩
  rintro parent draft rfl c
  exact hspares c not_false

def son : String := "0x27b1fdb04752bbc536007a920d24acb045561c26"

def dropped : Operation := .delete (.string "weekly")

theorem household_spared : household.Concerns evening daughter dropped ∧
    ¬ household.Concerns evening son dropped ∧
    household.Spares evening (household.after evening dropped) son := by
  obtain ⟨t, q, hholds, _, hgov, _⟩ := household_governs
  have hdaughter : household.Concerns evening daughter dropped :=
    hholds.serves hgov.policy hgov.child
  have hson : ¬ household.Concerns evening son dropped := by
    rintro ⟨key, p, a, hkey, hp, ha, hson⟩
    obtain rfl := Json.string.inj hkey
    obtain rfl := Option.some.inj (hgov.policy.symm.trans (hholds.stores_iff.mp hp))
    obtain ⟨b, hb, _, hdaughter⟩ := hgov.child
    obtain rfl := Json.string.inj (ha.symm.trans hb)
    exact absurd (hdaughter.symm.trans hson) (by decide)
  exact ⟨hdaughter, hson, (Reachable.spares household_reachable dropped trivial).1 son hson⟩

end Registry

end Allowance
