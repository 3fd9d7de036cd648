import Allowance.Proofs.Registry.Shelves

/-! # What operations make of each policy

A successful operation creates one policy, changes one, links one or deletes one. It returns the
policy as it was handed to the state file, and what is stored agrees with that. The only other
policy that it can change is the one that a linked child is taken from.
-/

namespace Allowance

open Checked

def Operation.Names (id : String) : Operation → Prop
  | .create _ _ => False
  | .update v _ => v = .string id
  | .toggle v _ => v = .string id
  | .setActive v _ => v = .string id
  | .link v _ => v = .string id
  | .delete v => v = .string id

theorem Operation.Names.unique {o : Operation} {id id' : String} (h : o.Names id)
    (h' : o.Names id') : id = id' := by
  cases o with
  | create parent draft => exact h.elim
  | _ => exact Json.string.inj (Eq.trans (Eq.symm h) h')

namespace Registry

variable {r : Registry} {w w' : World} {t : Tables} {p q old : PolicyRecord} {id key : String}
  {o : Operation} {c : Changes} {v : Json} {a : Answer} {policies : String → Option PolicyRecord}

/-- The changes that an operation asks for a stored policy to take. -/
inductive Asks (id : String) (old : PolicyRecord) : Operation → Changes → Prop
  | update (c : Changes) : Asks id old (.update (.string id) c) c
  | toggle {entry : BlockedEntry} {blocked : List BlockedEntry}
      (h : BlockedEntry.toggleEntry old.blockedActions entry = .ok blocked) :
      Asks id old (.toggle (.string id) entry) (blocking blocked)
  | setActive (active : Json) :
      Asks id old (.setActive (.string id) active) { isActive := some active }

/-- A policy has taken changes: it keeps its document if no changed field asks for a new one, and is
compiled as it now stands if one does. -/
structure Changed (r : Registry) (c : Changes) (old p : PolicyRecord) : Prop where
  applied : ∃ changed now document, c.apply old = .ok changed ∧
    p = { changed with updatedAt := .number now, document }
  kept : c.compiledFields.isEmpty = true → p.document = old.document
  compiled : c.compiledFields.isEmpty = false → ∃ d, r.compile p = .ok d ∧ p.document = some d

def Taken (policies : String → Option PolicyRecord) (id key : String)
    (policies' : String → Option PolicyRecord) : Prop :=
  policies' = policies ∨ ∃ other p q now, other ≠ id ∧ policies other = some p ∧ p.HasChild key ∧
    q.Agrees { p with child := .null, updatedAt := .number now } ∧
    policies' = Function.update policies other (some q)

/-- What a successful operation returns, and which policies are stored after it. -/
inductive Outcome (r : Registry) (w : World) (policies : String → Option PolicyRecord) :
    Operation → Answer → (String → Option PolicyRecord) → Prop
  | created {parent : Json} {draft : Draft} {p q : PolicyRecord}
      (hnew : policies (w.sources.id w.ids) = none)
      (hp : r.Drafted parent draft (w.sources.id w.ids) p) (hq : q.Agrees p) :
      Outcome r w policies (.create parent draft) (.policy p)
        (Function.update policies (w.sources.id w.ids) (some q))
  | changed {o : Operation} {id : String} {c : Changes} {old p q : PolicyRecord}
      (ho : Asks id old o c) (hold : policies id = some old) (hp : r.Changed c old p)
      (hq : q.Agrees p) :
      Outcome r w policies o (.policy p) (Function.update policies id (some q))
  | linked {id address : String} {now : Number} {old q : PolicyRecord}
      {taken : String → Option PolicyRecord} (hold : policies id = some old)
      (haddress : Address.isAddress address = true)
      (hq : q.Agrees { old with child := .string address, updatedAt := .number now })
      (htaken : Taken policies id (Address.key address) taken) :
      Outcome r w policies (.link (.string id) (.string address))
        (.policy { old with child := .string address, updatedAt := .number now })
        (Function.update taken id (some q))
  | deleted {id : String} {old : PolicyRecord} (hold : policies id = some old) :
      Outcome r w policies (.delete (.string id)) .done (Function.update policies id none)

theorem recompile_eq_ok (h : (r.recompile v c p).perform w = (.ok q, w')) :
    (c.compiledFields.isEmpty = true → q = p) ∧ (c.compiledFields.isEmpty = false →
      ∃ d, r.compile p = .ok d ∧ q = { p with document := some d }) := by
  unfold recompile at h
  cases hc : c.compiledFields.isEmpty with
  | true =>
    rw [hc, if_pos rfl, Step.perform_pure] at h
    simp_all
  | false =>
    rw [hc, if_neg Bool.false_ne_true] at h
    cases hcompile : r.compile p with
    | ok d =>
      simp only [hcompile, Step.perform_pure, Prod.mk.injEq, Except.ok.injEq] at h
      exact ⟨nofun, fun _ => ⟨d, rfl, h.1.symm⟩⟩
    | error f =>
      cases f <;> simp_all [Step.perform_bind]

theorem Holds.document_of_update (h : r.Holds w t)
    (hupdate : (r.update (.string id) c).perform w = (.ok p, w')) (hold : t.policy id = some old) :
    (c.compiledFields.isEmpty = true → p.document = old.document) ∧
      (c.compiledFields.isEmpty = false → ∃ d, r.compile p = .ok d ∧ p.document = some d) := by
  have hget : (r.get (.string id)).perform w = (.ok old, w) := by rw [h.get, hold]
  unfold Registry.update at hupdate
  split at hupdate
  · obtain ⟨_, _, hthrow, _⟩ := Step.perform_bind_eq_ok.mp hupdate
    cases hthrow
  obtain ⟨_, u, hperform, hupdate⟩ := Step.perform_bind_eq_ok.mp hupdate
  obtain ⟨rfl, rfl⟩ : _ = _ ∧ _ = _ := by simpa [hget] using hperform
  obtain ⟨changed, _, hlift, hupdate⟩ := Step.perform_bind_eq_ok.mp hupdate
  obtain ⟨happly, rfl⟩ := Step.perform_lift_eq_ok.mp hlift
  obtain ⟨now, _, _, hupdate⟩ := Step.perform_bind_eq_ok.mp hupdate
  obtain ⟨q, _, hrecompile, hupdate⟩ := Step.perform_bind_eq_ok.mp hupdate
  obtain ⟨_, _, _, hupdate⟩ := Step.perform_bind_eq_ok.mp hupdate
  obtain ⟨_, _, _, hupdate⟩ := Step.perform_bind_eq_ok.mp hupdate
  obtain ⟨_, _, _, hupdate⟩ := Step.perform_bind_eq_ok.mp hupdate
  obtain ⟨rfl, -⟩ : q = p ∧ _ = w' := by simpa using hupdate
  obtain ⟨hkept, hcompiled⟩ := recompile_eq_ok hrecompile
  constructor
  · intro hc
    rw [hkept hc]
    exact (Changes.keeps_of_apply happly).document
  · intro hc
    obtain ⟨d, hd, rfl⟩ := hcompiled hc
    exact ⟨d, hd, rfl⟩

theorem Holds.update_outcome (h : r.Holds w t) (ht : t.Valid r)
    (ho : ∀ id old, v = .string id → t.policy id = some old → Asks id old o c) :
    (r.update v c).Leads w
      (fun p w' => ∃ t', r.Holds w' t' ∧ t'.Valid r ∧
        r.Outcome w t.policy o (.policy p) t'.policy)
      (fun _ w' => w.Kept w') := by
  refine .mono (h.update ht.sound).performed ?_ fun _ _ hkept => hkept
  rintro p w' ⟨hupdate, id, old, changed, document, q, rfl, hold, hchanged, rfl, hagrees, hq,
    hholds⟩
  have hkeeps := Changes.keeps_of_apply hchanged
  obtain ⟨hkept, hcompiled⟩ := h.document_of_update hupdate hold
  have hvalid := ht.update hold hq (hagrees.child.trans hkeeps.child)
    (hagrees.parent.trans hkeeps.parent)
  refine ⟨_, hholds, hvalid, ?_⟩
  rw [Tables.publish_policy]
  exact .changed (ho id old rfl hold) hold ⟨⟨changed, _, document, hchanged, rfl⟩, hkept, hcompiled⟩
    hagrees

theorem Tables.Valid.taken (ht : t.Valid r) {t' : Tables}
    (hreleased : (t.detach old key).Released r w id key t') : Taken t.policy id key t'.policy := by
  rcases hreleased with ⟨_, rfl⟩ | ⟨other, p, q, now, ⟨l, hl, hother⟩, hne, hp, _, hagrees, _, rfl⟩
  · exact Or.inl Tables.detach_policy
  · rw [Tables.detach_policy] at hp
    obtain ⟨id', p', hid, hgov⟩ := (ht.settled key).of_link (Tables.link_of_detach hl)
    obtain rfl := Json.string.inj (hother.symm.trans hid)
    obtain rfl := Option.some.inj (hp.symm.trans hgov.policy)
    exact Or.inr ⟨other, p, q, now, hne, hp, hgov.child, hagrees,
      by rw [Tables.store, Tables.detach_policy]⟩

theorem Linked.outcome {child : Json} (ht : t.Valid r) (hl : r.Linked w t v child p w') :
    ∃ t', r.Holds w' t' ∧ t'.Valid r ∧
      r.Outcome w t.policy (.link v child) (.policy p) t'.policy := by
  obtain ⟨id, address, old, now, q, t₁, rfl, rfl, haddress, hold, _, rfl, hagrees, hq, hreleased,
    hholds⟩ := hl
  have hchild : q.HasChild (Address.key address) := ⟨address, hagrees.child, haddress, rfl⟩
  refine ⟨_, hholds, ht.link hold hq hchild hreleased, ?_⟩
  rw [Tables.attach_policy]
  exact .linked hold haddress hagrees (ht.taken hreleased)

/-- An operation on valid tables has an outcome, or fails and leaves everything as it was. -/
theorem Holds.operate (h : r.Holds w t) (ht : t.Valid r) (hfresh : r.FreshFor w o) :
    (r.operate o).Leads w
      (fun a w' => ∃ t', r.Holds w' t' ∧ t'.Valid r ∧ r.Outcome w t.policy o a t'.policy)
      (fun _ w' => w.Kept w') := by
  cases o with
  | create parent draft =>
    have hnew : t.policy (w.sources.id w.ids) = none :=
      Option.eq_none_iff_forall_ne_some.mpr fun p hp => hfresh p (h.stores_iff.mpr hp)
    refine .map (.mono h.create ?_ fun _ _ hkept => hkept)
    rintro p w' ⟨hdrafted, ⟨q, hagrees, hq, hholds⟩, _, _⟩
    exact ⟨_, hholds, ht.create hnew hq (hagrees.child.trans hdrafted.spec.2.1),
      .created hnew hdrafted hagrees⟩
  | update v c =>
    refine .map (h.update_outcome ht ?_)
    rintro id old rfl -
    exact .update c
  | toggle v entry =>
    refine .map ?_
    unfold Registry.toggle
    split
    · exact .throw ⟨rfl, rfl⟩
    · refine .bind (.mono h.get_leads ?_ ?_)
      · rintro old _ ⟨rfl, id, rfl, hold⟩
        refine .bind ?_
        cases hblocked : BlockedEntry.toggleEntry old.blockedActions entry with
        | error f => exact .of_error Step.perform_lift ⟨rfl, rfl⟩
        | ok blocked =>
          refine .of_ok Step.perform_lift (h.update_outcome ht ?_)
          rintro _ old' ⟨⟩ hold'
          obtain rfl := Option.some.inj (hold.symm.trans hold')
          exact .toggle hblocked
      · rintro _ w' rfl
        exact ⟨rfl, rfl⟩
  | setActive v active =>
    refine .map (h.update_outcome ht ?_)
    rintro id old rfl -
    exact .setActive active
  | link v child =>
    refine .map (.mono (h.link ht.sound ht.link_names) ?_ fun _ _ hkept => hkept)
    exact fun p w' hl => hl.outcome ht
  | delete v =>
    refine .map (.mono (h.delete ht.sound) ?_ fun _ _ hkept => hkept)
    rintro _ w' ⟨id, old, rfl, hold, hholds⟩
    refine ⟨_, hholds, ht.delete hold, ?_⟩
    rw [Tables.drop, Tables.unlink_policy]
    exact .deleted hold

theorem forall_update {P : PolicyRecord → Prop} (hall : ∀ id p, policies id = some p → P p)
    (hq : P q) : ∀ id' p, Function.update policies id (some q) id' = some p → P p := by
  intro id' p hp
  rw [Function.update_apply] at hp
  split at hp
  · obtain rfl := Option.some.inj hp
    exact hq
  · exact hall id' p hp

theorem Asks.names (h : Asks id old o c) : o.Names id := by
  cases h <;> rfl

theorem Taken.cases {policies' : String → Option PolicyRecord} {other : String}
    (h : Taken policies other key policies') (hp : policies id = some p) :
    policies' id = some p ∨ ∃ q now, p.HasChild key ∧
      q.Agrees { p with child := .null, updatedAt := .number now } ∧ policies' id = some q := by
  rcases h with rfl | ⟨loser, old, q, now, _, hold, hchild, hq, rfl⟩
  · exact Or.inl hp
  · by_cases hid : id = loser
    · subst hid
      obtain rfl := Option.some.inj (hp.symm.trans hold)
      exact Or.inr ⟨q, now, hchild, hq, Function.update_self ..⟩
    · exact Or.inl ((Function.update_of_ne hid ..).trans hp)

/-- An operation leaves a policy that it does not name as it was, or takes its child away. -/
theorem Outcome.frame {policies' : String → Option PolicyRecord}
    (h : r.Outcome w policies o a policies') (hp : policies id = some p) (hnot : ¬ o.Names id) :
    policies' id = some p ∨ ∃ v address q now, o = .link v (.string address) ∧
      p.HasChild (Address.key address) ∧
      q.Agrees { p with child := .null, updatedAt := .number now } ∧ policies' id = some q := by
  cases h with
  | created hnew hdrafted hq =>
    have hne : id ≠ w.sources.id w.ids := by
      rintro rfl
      simp [hnew] at hp
    exact Or.inl ((Function.update_of_ne hne ..).trans hp)
  | @changed _ other c old p q ho hold hchanged hq =>
    have hne : id ≠ other := by
      rintro rfl
      exact hnot ho.names
    exact Or.inl ((Function.update_of_ne hne ..).trans hp)
  | @linked other address now old q taken hold haddress hq htaken =>
    have hne : id ≠ other := by
      rintro rfl
      exact hnot rfl
    rw [Function.update_of_ne hne]
    refine (htaken.cases hp).imp_right ?_
    rintro ⟨q, now, hchild, hq, hstored⟩
    exact ⟨_, address, q, now, rfl, hchild, hq, hstored⟩
  | @deleted other old hold =>
    have hne : id ≠ other := by
      rintro rfl
      exact hnot rfl
    exact Or.inl ((Function.update_of_ne hne ..).trans hp)

/-- What holds of every policy that is made from a draft, and is kept by changes, by linking and by
storing. -/
structure Lasting (r : Registry) (P : PolicyRecord → Prop) : Prop where
  drafted : ∀ parent draft id p, r.Drafted parent draft id p → P p
  changed : ∀ c old p, r.Changed c old p → P old → P p
  linked : ∀ p child updatedAt, P p → P { p with child, updatedAt }
  stored : ∀ q p, q.Agrees p → P p → P q

theorem Taken.lasting {P : PolicyRecord → Prop} {policies' : String → Option PolicyRecord}
    (h : Taken policies id key policies') (hP : r.Lasting P)
    (hall : ∀ id p, policies id = some p → P p) : ∀ id p, policies' id = some p → P p := by
  rcases h with rfl | ⟨loser, old, q, now, _, hold, _, hq, rfl⟩
  · exact hall
  · exact forall_update hall (hP.stored _ _ hq (hP.linked _ _ _ (hall loser old hold)))

theorem Outcome.lasting {P : PolicyRecord → Prop} {policies' : String → Option PolicyRecord}
    (h : r.Outcome w policies o a policies') (hP : r.Lasting P)
    (hall : ∀ id p, policies id = some p → P p) : ∀ id p, policies' id = some p → P p := by
  cases h with
  | created hnew hp hq => exact forall_update hall (hP.stored _ _ hq (hP.drafted _ _ _ _ hp))
  | @changed _ id c old p q ho hold hp hq =>
    exact forall_update hall (hP.stored _ _ hq (hP.changed _ _ _ hp (hall id old hold)))
  | @linked id address now old q taken hold haddress hq htaken =>
    exact forall_update (htaken.lasting hP hall)
      (hP.stored _ _ hq (hP.linked _ _ _ (hall id old hold)))
  | @deleted deleted old hold =>
    intro id p hp
    rw [Function.update_apply] at hp
    split at hp
    · cases hp
    · exact hall id p hp

theorem operate_world : ((r.operate o).perform w).2 = r.after w o := by
  cases o <;> simp [operate, after]

theorem Reachable.after_cases (h : r.Reachable w) (hfresh : r.FreshFor w o) :
    ∃ t t', r.Holds w t ∧ t.Valid r ∧ r.Holds (r.after w o) t' ∧ t'.Valid r ∧
      ((∃ a, ((r.operate o).perform w).1 = .ok a ∧ r.Outcome w t.policy o a t'.policy) ∨
        ∃ e, ((r.operate o).perform w).1 = .error e ∧ t'.policy = t.policy) := by
  obtain ⟨t, hholds, ht⟩ := h.consistent
  rw [← operate_world]
  obtain ⟨a, w', hperform, t', hholds', ht', houtcome⟩ | ⟨e, w', hperform, hkept⟩ :=
    (hholds.operate ht hfresh).ok_or_error
  · rw [hperform]
    exact ⟨t, t', hholds, ht, hholds', ht', Or.inl ⟨a, rfl, houtcome⟩⟩
  · rw [hperform]
    exact ⟨t, t, hholds, ht, hholds.kept hkept, ht, Or.inr ⟨e, rfl, rfl⟩⟩

theorem Reachable.stores_congr (h : r.Reachable w) (hdisk : w'.disk = w.disk)
    (hshelf : w'.shelf = w.shelf) : r.Stores w' id p ↔ r.Stores w id p := by
  obtain ⟨t, hholds, -⟩ := h.consistent
  rw [hholds.stores_iff, (hholds.congr hdisk hshelf).stores_iff]

theorem Reachable.lasting {P : PolicyRecord → Prop} (h : r.Reachable w) (hP : r.Lasting P) :
    ∀ id p, r.Stores w id p → P p := by
  induction h with
  | blank hblank =>
    intro id p hp
    cases hblank.holds.stores_iff.mp hp
  | operation o h hfresh ih =>
    obtain ⟨t, t', hholds, -, hholds', -, houtcome⟩ := h.after_cases hfresh
    have hall (id : String) (p : PolicyRecord) (hp : t.policy id = some p) : P p :=
      ih id p (hholds.stores_iff.mpr hp)
    intro id p hp
    rw [hholds'.stores_iff] at hp
    obtain ⟨a, -, houtcome⟩ | ⟨e, -, hsame⟩ := houtcome
    · exact houtcome.lasting hP hall id p hp
    · exact hall id p (hsame ▸ hp)
  | elsewhere h hdisk hshelf ih =>
    intro id p hp
    exact ih id p ((h.stores_congr hdisk hshelf).mp hp)

end Registry

end Allowance
