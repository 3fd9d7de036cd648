import Allowance.Proofs.Address
import Allowance.Proofs.Registry.Quiet
import Allowance.Proofs.Registry.Tables

/-! # What operations do to the tables

Each operation of the registry reads before it writes, and once it writes it cannot fail. So it
either fails and leaves everything that is written as it was, or it succeeds and changes the tables
in one way that is told here, for worlds whose records are sound.
-/

namespace Allowance

open Checked

namespace PolicyRecord

variable {p q : PolicyRecord} {key : String} {r : Registry}

def HasChild (p : PolicyRecord) (key : String) : Prop :=
  ∃ address, p.child = .string address ∧ Address.isAddress address = true ∧
    Address.key address = key

/-- What is published for a policy: its document, as long as it is active. -/
def publication? (p : PolicyRecord) : Option Publication :=
  if p.isActive.truthy then p.document.map fun document => { parent := p.parent, document }
  else none

/-- What every stored policy satisfies. -/
structure Sound (r : Registry) (id : String) (p : PolicyRecord) : Prop where
  id : p.id = .string id
  storable : p.Storable
  compiled : p.CompiledBy r
  child : p.child = .null ∨ ∃ key, p.HasChild key

theorem HasChild.unique {key' : String} (h : p.HasChild key) (h' : p.HasChild key') :
    key = key' := by
  obtain ⟨a, ha, _, rfl⟩ := h
  obtain ⟨b, hb, _, rfl⟩ := h'
  rw [ha] at hb
  obtain rfl := Json.string.inj hb
  rfl

theorem Agrees.hasChild (h : q.Agrees p) : q.HasChild key ↔ p.HasChild key := by
  simp only [HasChild, h.child]

theorem Agrees.publication? (h : q.Agrees p) : q.publication? = p.publication? := by
  simp only [PolicyRecord.publication?, h.isActive, h.document, h.parent]

theorem publication?_eq_some {pub : Publication} : p.publication? = some pub ↔
    p.isActive.truthy = true ∧ pub.parent = p.parent ∧ p.document = some pub.document := by
  unfold PolicyRecord.publication?
  split
  · rename_i hactive
    constructor
    · intro h
      obtain ⟨document, hdocument, rfl⟩ := Option.map_eq_some_iff.mp h
      exact ⟨hactive, rfl, hdocument⟩
    · rintro ⟨_, hparent, hdocument⟩
      rw [hdocument, ← hparent]
      rfl
  · simp [*]

theorem publication?_of_document {d : Document} (hd : p.document = some d) : p.publication? =
    if p.isActive.truthy then some { parent := p.parent, document := d } else none := by
  simp [PolicyRecord.publication?, hd]

theorem Sound.document {id : String} (h : p.Sound r id) : ∃ d, p.document = some d := by
  obtain ⟨s, cs, _, _, hdocument⟩ := h.compiled
  exact ⟨_, hdocument⟩

theorem Sound.isSome_publication? {id : String} (h : p.Sound r id) :
    p.publication?.isSome = true ↔ p.isActive.truthy = true := by
  obtain ⟨d, hd⟩ := h.document
  simp [publication?_of_document hd]

theorem Sound.with_child {id : String} (h : p.Sound r id) (child updatedAt : Json)
    (hchild : child = .null ∨
      ∃ address, child = .string address ∧ Address.isAddress address = true) :
    Sound r id { p with child, updatedAt } where
  id := h.id
  storable := ⟨h.storable.chains, h.storable.chainsSorted, h.storable.addresses,
    h.storable.blocked, h.storable.document⟩
  compiled := h.compiled.congr rfl rfl
  child := by
    rcases hchild with hnull | ⟨address, rfl, haddress⟩
    · exact Or.inl hnull
    · exact Or.inr ⟨_, address, rfl, haddress, rfl⟩

end PolicyRecord

namespace Registry

namespace Tables

def store (t : Tables) (id : String) (p : PolicyRecord) : Tables :=
  { t with policy := Function.update t.policy id (some p) }

def publish (t : Tables) (p : PolicyRecord) : Tables :=
  match p.child with
  | .string c => { t with published := Function.update t.published (Address.key c) p.publication? }
  | _ => t

def unlink (t : Tables) (child : Json) : Tables :=
  match child with
  | .string c => { t with
      link := Function.update t.link (Address.key c) none
      published := Function.update t.published (Address.key c) none }
  | _ => t

end Tables

variable {r : Registry} {w w' : World} {t : Tables} {p q : PolicyRecord} {id : String}
  {v child : Json}

theorem perform_addressKey {c : String} :
    (liftM (Json.string c).addressKey : Step String).perform w = (.ok (Address.key c), w) :=
  Step.perform_lift

theorem Holds.log (h : r.Holds w t) {level : Level} {logger message : String} :
    r.Holds { w with log := w.log ++ [⟨level, logger, message⟩] } t :=
  h.congr rfl rfl

theorem Holds.kept (h : r.Holds w t) (hkept : w.Kept w') : r.Holds w' t :=
  h.congr hkept.disk hkept.shelf

theorem Holds.now (h : r.Holds w t) : r.Holds { w with times := w.times + 1 } t :=
  h.congr rfl rfl

theorem Holds.publish (h : r.Holds w t) (hp : p.Sound r id) :
    ∃ w', (r.publish p).perform w = (.ok (), w') ∧ r.Holds w' (t.publish p) := by
  rcases hp.child with hchild | ⟨_, c, hchild, _⟩
  · refine ⟨w, by simp [Registry.publish, hchild], by simpa [Tables.publish, hchild] using h⟩
  · obtain ⟨d, hdocument⟩ := hp.document
    have hwell := hp.storable.document d hdocument
    simp only [Registry.publish, hchild, hdocument, Tables.publish, PolicyRecord.publication?]
    split
    · exact h.shelf_put c hwell
    · exact h.shelf_remove c

theorem Holds.unlink (h : r.Holds w t) (c : String) : ∃ w',
    (r.unlink (.string c)).perform w = (.ok (), w') ∧ r.Holds w' (t.unlink (.string c)) := by
  obtain ⟨d, found, hdelete, hlinks⟩ := h.delete_link (Address.key c)
  obtain ⟨w', hremove, hshelf⟩ := hlinks.shelf_remove c
  refine ⟨w', ?_, hshelf⟩
  simp [Registry.unlink, Step.perform_bind, Json.addressKey, hdelete, hremove]

theorem Holds.save_sound (h : r.Holds w t) (hp : p.Sound r id) : ∃ d q v,
    (r.save p).perform w = (.ok (), { w with disk := d }) ∧ q.Agrees p ∧ q.Sound r id ∧
      r.Holds { w with disk := d } (t.store id q) ∧
      State.Edited w.disk d r.path State.policies (Json.Fields.put · id v) := by
  obtain ⟨d, q, v, hsave, hagrees, hq, hholds, hedited⟩ := h.save hp.id hp.storable
  refine ⟨d, q, v, hsave, hagrees, ⟨hagrees.id.trans hp.id, hq, ?_, ?_⟩, hholds, hedited⟩
  · exact hp.compiled.of_agrees hagrees hp.storable.hasSets
  · simpa only [hagrees.child, hagrees.hasChild] using hp.child

/-- What saving a policy leaves behind: it was put among the policies, and nothing else changed. -/
structure Saved (r : Registry) (w : World) (t : Tables) (id : String) (p : PolicyRecord)
    (w' : World) : Prop where
  stored : ∃ q, q.Agrees p ∧ q.Sound r id ∧ r.Holds w' (t.store id q)
  disk : ∃ v, State.Edited w.disk w'.disk r.path State.policies (Json.Fields.put · id v)
  shelf : w'.shelf = w.shelf

/-- Saving a compiled policy fails before it writes, or stores what agrees with it. -/
theorem Holds.save_leads (h : r.Holds w t) (hid : p.id = .string id) (hsets : p.HasSets)
    (hcompiled : p.CompiledBy r) (hchild : p.child = .null ∨ ∃ key, p.HasChild key) :
    (r.save p).Leads w (fun _ w' => p.Sound r id ∧ r.Saved w t id p w') (fun _ w' => w' = w) := by
  cases hv : p.toJson with
  | error e =>
    have hsave : (r.save p).perform w = (.error e, w) := by
      simp [Registry.save, Step.perform_bind, hv]
    exact .of_error hsave rfl
  | ok v =>
    have hp : p.Sound r id := ⟨hid, PolicyRecord.storable_of_toJson hv hsets.chains hsets.addresses
      hcompiled.document_wellFormed, hcompiled, hchild⟩
    obtain ⟨d, q, v, hsave, hagrees, hq, hholds, hedited⟩ := h.save_sound hp
    exact .of_ok hsave ⟨hp, ⟨q, hagrees, hq, hholds⟩, ⟨v, hedited⟩, rfl⟩

/-- A policy is made from a draft: brought into the form of a record and compiled. -/
def Drafted (r : Registry) (parent : Json) (draft : Draft) (id : String) (p : PolicyRecord) :
    Prop :=
  ∃ createdAt blank document, draft.toRecord parent .null createdAt = .ok blank ∧
    r.compile { blank with id := .string id } = .ok document ∧
    p = { blank with id := .string id, document := some document }

theorem Drafted.spec {parent : Json} {draft : Draft} (h : r.Drafted parent draft id p) :
    p.id = .string id ∧ p.child = .null ∧ p.parent = parent ∧ p.isActive = draft.isActive ∧
      ∃ document, p.document = some document := by
  obtain ⟨_, blank, document, hblank, _, rfl⟩ := h
  obtain ⟨_, hchild, hparent, hactive⟩ := Draft.toRecord_spec hblank
  exact ⟨rfl, hchild, hparent, hactive, document, rfl⟩

/-- A creation fails before it writes, or saves the policy of the draft under the next id. -/
theorem Holds.create (h : r.Holds w t) {parent : Json} {draft : Draft} :
    (r.create parent draft).Leads w
      (fun p w' => r.Drafted parent draft (w.sources.id w.ids) p ∧
        r.Saved w t (w.sources.id w.ids) p w')
      (fun _ w' => w.Kept w') := by
  unfold Registry.create
  split
  · exact .bind (.throw ⟨rfl, rfl⟩)
  · refine .bind (.of_ok Step.perform_now ?_)
    refine .bind (.lift (fun blank hblank => ?_) fun _ => ⟨rfl, rfl⟩)
    refine .bind (.of_ok Step.perform_freshId ?_)
    refine .bind (.lift (fun document hdocument => ?_) fun _ => ⟨rfl, rfl⟩)
    obtain ⟨hsets, hchild, _, _⟩ := Draft.toRecord_spec hblank
    have hfresh : r.Holds { w with times := w.times + 1, ids := w.ids + 1 } t := h.congr rfl rfl
    have hcompiled := PolicyRecord.compiledBy_of_compile hdocument
    refine .bind (.mono (hfresh.save_leads rfl ⟨hsets.chains, hsets.addresses⟩ hcompiled
      (Or.inl hchild)) ?_ ?_)
    · rintro _ w' ⟨_, ⟨q, hagrees, hq, hholds⟩, hdisk, hshelf⟩
      refine .bind (.of_ok Step.perform_log
        (.pure ⟨⟨_, blank, document, hblank, hdocument, rfl⟩, ?_, hdisk, hshelf⟩))
      exact ⟨q, hagrees, hq, hholds.log⟩
    · rintro _ w' rfl
      exact ⟨rfl, rfl⟩

section Drafted

variable {parent : Json} {draft : Draft} {document : Document} {now : Number}
  (hnow : w.sources.time w.times = now) (hid : w.sources.id w.ids = id)
  (hparent : Address.isAddressValue parent = true)
  (hblank : draft.toRecord parent .null (.number now) = .ok p)
  (hdocument : r.compile { p with id := .string id } = .ok document)
  (hv : PolicyRecord.toJson { p with id := .string id, document := some document } = .ok v)

include hnow hid hparent hblank hdocument hv

theorem Holds.create_saved (h : r.Holds w t) : (r.create parent draft).Leads w
    (fun q w' => q = { p with id := .string id, document := some document } ∧
      r.Saved w t id q w')
    (fun _ _ => False) := by
  obtain ⟨hsets, hchild, _, _⟩ := Draft.toRecord_spec hblank
  have hcompiled := PolicyRecord.compiledBy_of_compile hdocument
  have hsound : PolicyRecord.Sound r id { p with id := .string id, document := some document } :=
    ⟨rfl, PolicyRecord.storable_of_toJson hv hsets.chains hsets.addresses
      hcompiled.document_wellFormed, hcompiled, Or.inl hchild⟩
  have hfresh : r.Holds { w with times := w.times + 1, ids := w.ids + 1 } t := h.congr rfl rfl
  obtain ⟨d, q, v, hsave, hagrees, hq, hholds, hedited⟩ := hfresh.save_sound hsound
  unfold Registry.create
  rw [if_neg (by simp [hparent])]
  refine .bind (.of_ok Step.perform_now ?_)
  refine .bind (.of_ok (Step.perform_lift.trans (by rw [hnow, hblank])) ?_)
  refine .bind (.of_ok Step.perform_freshId ?_)
  refine .bind (.of_ok (Step.perform_lift.trans (by rw [hid, hdocument])) ?_)
  refine .bind (.of_ok (by rw [hid]; exact hsave) (.bind (.of_ok Step.perform_log (.pure ?_))))
  exact ⟨by rw [hid], ⟨q, hid ▸ hagrees, hq, hholds.log⟩, ⟨v, hedited⟩, rfl⟩

theorem Holds.create_stored (h : r.Holds w t) :
    ∃ q, q.Agrees { p with id := .string id, document := some document } ∧ q.Sound r id ∧
      r.Holds ((r.create parent draft).perform w).2 (t.store id q) := by
  have hcreate := h.create_saved hnow hid hparent hblank hdocument hv
  exact (hcreate.world (P := r.Saved w t id { p with id := .string id, document := some document })
    (by rintro _ w' ⟨rfl, hsaved⟩; exact hsaved) fun _ _ hfalse => hfalse.elim).stored

end Drafted

theorem recompile_leads {id : Json} {c : Changes}
    (hp : c.compiledFields.isEmpty = true → p.CompiledBy r) : (r.recompile id c p).Leads w
      (fun q w' => w' = w ∧ (∃ document, q = { p with document }) ∧ q.CompiledBy r)
      (fun _ w' => w.Kept w') := by
  unfold Registry.recompile
  split
  · rename_i hnone
    exact .pure ⟨rfl, ⟨p.document, rfl⟩, hp hnone⟩
  · split
    · rename_i document hdocument
      exact .pure ⟨rfl, ⟨some document, rfl⟩, PolicyRecord.compiledBy_of_compile hdocument⟩
    · exact .bind (.of_ok Step.perform_log (.throw ⟨rfl, rfl⟩))
    · exact .throw ⟨rfl, rfl⟩

theorem Tables.publish_agrees (h : q.Agrees p) : t.publish q = t.publish p := by
  simp only [Tables.publish, h.child, h.publication?]

/-- What a successful update leaves behind: the changed policy, stored and published anew. -/
def Updated (r : Registry) (t : Tables) (id : Json) (c : Changes) (now : Number) (p : PolicyRecord)
    (w' : World) : Prop :=
  ∃ key old changed document q, id = .string key ∧ t.policy key = some old ∧
    c.apply old = .ok changed ∧ p = { changed with updatedAt := .number now, document } ∧
    q.Agrees p ∧ q.Sound r key ∧ r.Holds w' ((t.store key q).publish q)

theorem Holds.update (h : r.Holds w t) (hsound : ∀ key p, t.policy key = some p → p.Sound r key)
    {id : Json} {c : Changes} : (r.update id c).Leads w
      (r.Updated t id c (w.sources.time w.times)) (fun _ w' => w.Kept w') := by
  unfold Registry.update
  split
  · exact .bind (.throw ⟨rfl, rfl⟩)
  · refine .bind (.mono h.get_leads ?_ ?_)
    · rintro old _ ⟨rfl, key, rfl, hold⟩
      have hsound := hsound key old hold
      refine .bind (.lift (fun changed hchanged => ?_) fun _ => ⟨rfl, rfl⟩)
      have hkeeps := Changes.keeps_of_apply hchanged
      have hsets := Changes.hasSets_of_apply hchanged hsound.storable.hasSets
      have hoptions := Changes.options_of_apply hchanged
      refine .bind (.of_ok Step.perform_now ?_)
      refine .bind (.mono (recompile_leads fun hc =>
        hsound.compiled.congr (hoptions hc) hkeeps.document) ?_ ?_)
      · rintro p _ ⟨rfl, ⟨document, hp⟩, hcompiled⟩
        have hid : p.id = .string key := by rw [hp]; exact hkeeps.id.trans hsound.id
        have hsets' : p.HasSets := by rw [hp]; exact ⟨hsets.chains, hsets.addresses⟩
        have hchild : p.child = .null ∨ ∃ key, p.HasChild key := by
          have hold : p.child = old.child := by rw [hp]; exact hkeeps.child
          simpa only [PolicyRecord.HasChild, hold] using hsound.child
        refine .bind (.mono (h.now.save_leads hid hsets' hcompiled hchild) ?_ ?_)
        · rintro _ w' ⟨hsoundp, ⟨q, hagrees, hq, hholds⟩, _, _⟩
          obtain ⟨w'', hpublish, hholds⟩ := hholds.publish hsoundp
          refine .bind (.of_ok hpublish (.bind (.of_ok Step.perform_log (.pure ?_))))
          rw [← Tables.publish_agrees hagrees] at hholds
          exact ⟨key, old, changed, document, q, rfl, hold, hchanged, hp, hagrees, hq, hholds.log⟩
        · rintro _ w' rfl
          exact ⟨rfl, rfl⟩
      · exact fun _ w' hkept => ⟨hkept.disk, hkept.shelf⟩
    · rintro _ w' rfl
      exact ⟨rfl, rfl⟩

def blocking (blocked : List BlockedEntry) : Changes := { blockedActions := some (.listed blocked) }

theorem Holds.toggle (h : r.Holds w t) (hsound : ∀ key p, t.policy key = some p → p.Sound r key)
    {id : Json} {entry : BlockedEntry} : (r.toggle id entry).Leads w
      (fun p w' => ∃ key old blocked, id = .string key ∧ t.policy key = some old ∧
        r.Updated t id (blocking blocked) (w.sources.time w.times) p w')
      (fun _ w' => w.Kept w') := by
  unfold Registry.toggle
  split
  · exact .throw ⟨rfl, rfl⟩
  · refine .bind (.mono h.get_leads ?_ ?_)
    · rintro old _ ⟨rfl, key, rfl, hold⟩
      refine .bind ?_
      cases BlockedEntry.toggleEntry old.blockedActions entry with
      | ok blocked =>
        refine .of_ok Step.perform_lift (.mono (h.update hsound) ?_ fun _ _ hw => hw)
        exact fun p w' hp => ⟨key, old, blocked, rfl, hold, hp⟩
      | error f => exact .of_error Step.perform_lift ⟨rfl, rfl⟩
    · rintro _ w' rfl
      exact ⟨rfl, rfl⟩

def Tables.drop (t : Tables) (id : String) : Tables :=
  { t with policy := Function.update t.policy id none }

theorem Holds.delete (h : r.Holds w t) (hsound : ∀ key p, t.policy key = some p → p.Sound r key)
    {id : Json} : (r.delete id).Leads w
      (fun _ w' => ∃ key old, id = .string key ∧ t.policy key = some old ∧
        r.Holds w' ((t.unlink old.child).drop key))
      (fun _ w' => w.Kept w') := by
  unfold Registry.delete
  refine .bind (.mono h.get_leads ?_ ?_)
  · rintro old _ ⟨rfl, key, rfl, hold⟩
    rcases (hsound key old hold).child with hchild | ⟨_, c, hchild, _⟩
    · obtain ⟨d, found, hdelete, hholds, _⟩ := h.delete_policy key
      simp only [hchild]
      refine .bind (.of_ok Step.perform_lift (.bind (.of_ok hdelete ?_)))
      exact .of_ok Step.perform_log ⟨key, old, rfl, hold, hchild ▸ hholds.log⟩
    · obtain ⟨w₁, hunlink, hholds⟩ := h.unlink c
      obtain ⟨d, found, hdelete, hholds, _⟩ := hholds.delete_policy key
      simp only [hchild]
      refine .bind (.of_ok hunlink (.bind (.of_ok Step.perform_lift (.bind (.of_ok hdelete ?_)))))
      exact .of_ok Step.perform_log ⟨key, old, rfl, hold, hchild ▸ hholds.log⟩
  · rintro _ w' rfl
    exact ⟨rfl, rfl⟩

/-- The tables after the child with a given key was taken from the policy it is linked to, unless
that is the policy with a given id. -/
def Tables.Released (r : Registry) (w : World) (t : Tables) (id key : String) (t' : Tables) :
    Prop :=
  (∀ l other p, t.link key = some l → l.policy = .string other → t.policy other = some p →
      other = id) ∧ t' = t ∨
    ∃ other p q now, (∃ l, t.link key = some l ∧ l.policy = .string other) ∧ other ≠ id ∧
      t.policy other = some p ∧ w.Shows now ∧
      q.Agrees { p with child := .null, updatedAt := .number now } ∧ q.Sound r other ∧
      t' = t.store other q

theorem Tables.Released.mono {key : String} {t' : Tables} (h : t.Released r w' id key t')
    (hclock : ∀ now, w'.Shows now → w.Shows now) : t.Released r w id key t' := by
  rcases h with hnone | ⟨other, p, q, now, hlink, hne, hp, hnow, hagrees, hq, ht'⟩
  · exact Or.inl hnone
  · exact Or.inr ⟨other, p, q, now, hlink, hne, hp, hclock now hnow, hagrees, hq, ht'⟩

theorem Holds.release (h : r.Holds w t) (hsound : ∀ key p, t.policy key = some p → p.Sound r key)
    (id : String) {key : String} (hkey : Address.key key = key)
    (hlinks : ∀ l, t.link key = some l → ∃ other, l.policy = .string other) :
    ∃ w' t', (r.release (.string id) (.string key)).perform w = (.ok (), w') ∧ r.Holds w' t' ∧
      t.Released r w id key t' := by
  have hlink : (r.link? (.string key)).perform w = (.ok (t.link key), w) := by
    rw [h.link?, hkey]
  cases hl : t.link key with
  | none =>
    refine ⟨w, t, ?_, h, Or.inl ⟨by simp [hl], rfl⟩⟩
    simp [Registry.release, Step.perform_bind, hlink, hl]
  | some l =>
    obtain ⟨other, hpolicy⟩ := hlinks l hl
    have hnamed : ∀ l' other' p, t.link key = some l' → l'.policy = .string other' →
        t.policy other' = some p → other' = other := by
      intro l' other' p hl' hpolicy' _
      obtain rfl := Option.some.inj (hl.symm.trans hl')
      exact Json.string.inj (hpolicy'.symm.trans hpolicy)
    by_cases hother : other = id
    · refine ⟨w, t, ?_, h, Or.inl ⟨fun l' other' p hl' hp' hp => ?_, rfl⟩⟩
      · simp [Registry.release, Step.perform_bind, hlink, hl, hpolicy, Json.same, hother]
      · exact (hnamed l' other' p hl' hp' hp).trans hother
    cases hp : t.policy other with
    | none =>
      -- The link is left over from a policy that is gone.
      refine ⟨w, t, ?_, h, Or.inl ⟨fun l' other' p hl' hp' hp'' => ?_, rfl⟩⟩
      · have hmissing : (found? (r.get (.string other))).perform w = (.ok none, w) := by
          simp [found?, Step.perform_tryCatch, h.get, hp, Except.map]
        simp [Registry.release, Step.perform_bind, hlink, hl, hpolicy, Json.same, hother, hmissing]
      · rw [hnamed l' other' p hl' hp' hp'', hp] at hp''
        cases hp''
    | some p =>
      have hfreed := (hsound other p hp).with_child .null
        (.number (w.sources.time w.times)) (Or.inl rfl)
      obtain ⟨d, q, _, hsave, hagrees, hq, hholds, _⟩ := h.now.save_sound hfreed
      refine ⟨_, _, ?_, hholds,
        Or.inr ⟨other, p, q, _, ⟨l, hl, hpolicy⟩, hother, hp, w.shows_next, hagrees, hq, rfl⟩⟩
      have hfound : (found? (r.get (.string other))).perform w = (.ok (some p), w) := by
        simp [found?, Step.perform_tryCatch, h.get, hp]
      simp [Registry.release, Step.perform_bind, hlink, hl, hpolicy, Json.same, hother, hfound,
        hsave]

def Tables.detach (t : Tables) (p : PolicyRecord) (key : String) : Tables :=
  match p.child with
  | .string c => if Address.key c = key then t else t.unlink (.string c)
  | _ => t

def Tables.attach (t : Tables) (id key : String) (p : PolicyRecord) : Tables :=
  let link := { child := .string key, policy := .string id, parent := p.parent }
  Tables.publish { t.store id p with link := Function.update t.link key (some link) } p

/-- What a successful linking leaves behind: the policy is detached from its old child, the child is
released from its old policy, and both are linked to each other. -/
def Linked (r : Registry) (w : World) (t : Tables) (v child : Json) (p : PolicyRecord)
    (w' : World) : Prop :=
  ∃ id address old now q t', v = .string id ∧ child = .string address ∧
    Address.isAddress address = true ∧ t.policy id = some old ∧ w.Shows now ∧
    p = { old with child, updatedAt := .number now } ∧ q.Agrees p ∧ q.Sound r id ∧
    (t.detach old (Address.key address)).Released r w id (Address.key address) t' ∧
    r.Holds w' (t'.attach id (Address.key address) q)

theorem Linked.mono {u : World} {v child : Json} (h : r.Linked u t v child p w')
    (hclock : ∀ now, u.Shows now → w.Shows now) : r.Linked w t v child p w' := by
  obtain ⟨id, address, old, now, q, t', hid, hchild, haddress, hold, hnow, hp, hagrees, hq,
    hreleased, hholds⟩ := h
  exact ⟨id, address, old, now, q, t', hid, hchild, haddress, hold, hclock now hnow, hp, hagrees,
    hq, hreleased.mono hclock, hholds⟩

theorem Holds.attach (h : r.Holds w t) (hsound : ∀ key p, t.policy key = some p → p.Sound r key)
    {address : String} (haddress : Address.isAddress address = true)
    (hlinks : ∀ l, t.link (Address.key address) = some l → ∃ other, l.policy = .string other)
    (hp : p.Sound r id) :
    (r.attach (.string id) (.string address) (Address.key address) p).Leads w
      (fun linked w' => ∃ now q t', w.Shows now ∧
        linked = { p with child := .string address, updatedAt := .number now } ∧
        q.Agrees linked ∧ q.Sound r id ∧ t.Released r w id (Address.key address) t' ∧
        r.Holds w' (t'.attach id (Address.key address) q))
      (fun _ _ => False) := by
  obtain ⟨w₁, t₁, hrelease, hholds, hreleased⟩ :=
    h.release hsound id (Address.key_key haddress) hlinks
  have hunasked := release_unasked.after hrelease
  have hnow := hunasked.shows w₁.shows_next
  have hlinked := hp.with_child (.string address) (.number (w₁.sources.time w₁.times))
    (Or.inr ⟨address, rfl, haddress⟩)
  obtain ⟨d, q, _, hsave, hagrees, hq, hholds, _⟩ := hholds.now.save_sound hlinked
  obtain ⟨d', hput, hholds⟩ := hholds.put_link (Address.key address)
    { child := .string (Address.key address), policy := .string id, parent := p.parent }
  obtain ⟨w₂, hpublish, hholds⟩ := hholds.publish hlinked
  unfold Registry.attach
  refine .bind (.of_ok hrelease (.bind (.of_ok Step.perform_now (.bind (.of_ok hsave
    (.bind (.of_ok hput (.bind (.of_ok hpublish ?_)))))))))
  refine .bind (.of_ok Step.perform_log (.pure
    ⟨_, q, t₁, hnow, rfl, hagrees, hq, hreleased, ?_⟩))
  rw [← Tables.publish_agrees hagrees] at hholds
  have hparent : q.parent = p.parent := hagrees.parent
  simpa only [Tables.attach, Tables.store, hparent] using hholds.log

theorem Tables.detach_policy {key : String} : (t.detach p key).policy = t.policy := by
  unfold detach
  split
  · split <;> rfl
  · rfl

theorem Tables.link_of_detach {key other : String} {l : LinkRecord}
    (h : (t.detach p key).link other = some l) : t.link other = some l := by
  unfold detach at h
  split at h
  · split at h
    · exact h
    · simp only [unlink, Function.update_apply] at h
      split at h
      · cases h
      · exact h
  · exact h

theorem Holds.link_stored (h : r.Holds w t)
    (hsound : ∀ key p, t.policy key = some p → p.Sound r key)
    (hlinks : ∀ key l, t.link key = some l → ∃ other, l.policy = .string other)
    {address : String} (haddress : Address.isAddress address = true) (hp : t.policy id = some p) :
    (r.link (.string id) (.string address)).Leads w
      (r.Linked w t (.string id) (.string address)) (fun _ _ => False) := by
  have hget : (r.get (.string id)).perform w = (.ok p, w) := by rw [h.get, hp]
  have hrest : ∀ w₁, w.Unasked w₁ → r.Holds w₁ (t.detach p (Address.key address)) →
      (r.attach (.string id) (.string address) (Address.key address) p).Leads w₁
        (r.Linked w t (.string id) (.string address)) (fun _ _ => False) := by
    intro w₁ hunasked hholds
    refine .mono (hholds.attach ?_ haddress ?_ (hsound id p hp)) ?_ fun _ _ hfalse => hfalse
    · rwa [Tables.detach_policy]
    · exact fun l hl => hlinks _ l (Tables.link_of_detach hl)
    · rintro linked w' ⟨now, q, t', hnow, hlinked, hagrees, hq, hreleased, hattached⟩
      exact ⟨id, address, p, now, q, t', rfl, rfl, haddress, hp, hunasked.shows hnow, hlinked,
        hagrees, hq, hreleased.mono fun _ => hunasked.shows, hattached⟩
  unfold Registry.link
  rw [if_neg (by simp [Address.isAddressValue, haddress])]
  refine .bind (.of_ok perform_addressKey ?_)
  refine .bind (.of_ok hget ?_)
  rcases (hsound id p hp).child with hchild | ⟨_, c, hchild, _⟩
  · simp only [hchild]
    exact hrest w (Frame.unasked.refl w) (by simpa only [Tables.detach, hchild] using h)
  · simp only [hchild]
    refine .bind (.of_ok Step.perform_ofChecked ?_)
    simp only [bne_iff_ne]
    split
    · rename_i hne
      obtain ⟨w₁, hunlink, hholds⟩ := h.unlink c
      have hunasked := unlink_unasked.after hunlink
      refine .bind (.of_ok hunlink (hrest w₁ hunasked ?_))
      simpa only [Tables.detach, hchild, if_neg hne] using hholds
    · rename_i hne
      refine hrest w (Frame.unasked.refl w) ?_
      simpa only [Tables.detach, hchild, if_pos (not_not.mp hne)] using h

/-- A linking fails before it writes, or links the policy and the child to each other. -/
theorem Holds.link (h : r.Holds w t) (hsound : ∀ key p, t.policy key = some p → p.Sound r key)
    (hlinks : ∀ key l, t.link key = some l → ∃ other, l.policy = .string other) :
    (r.link v child).Leads w (r.Linked w t v child) (fun _ w' => w.Kept w') := by
  by_cases hstored : ∃ id address p, v = .string id ∧ child = .string address ∧
      Address.isAddress address = true ∧ t.policy id = some p
  · obtain ⟨id, address, p, rfl, rfl, haddress, hp⟩ := hstored
    exact .mono (h.link_stored hsound hlinks haddress hp) (fun _ _ hl => hl)
      fun _ _ hfalse => hfalse.elim
  · unfold Registry.link
    split
    · exact .bind (.throw ⟨rfl, rfl⟩)
    · rename_i hchild
      obtain ⟨address, rfl, haddress⟩ : ∃ address, child = .string address ∧
          Address.isAddress address = true := by
        cases child <;> simp_all [Address.isAddressValue]
      refine .bind (.of_ok perform_addressKey ?_)
      refine .bind (.mono h.get_leads ?_ ?_)
      · rintro p _ ⟨_, id, rfl, hp⟩
        exact absurd ⟨id, address, p, rfl, rfl, haddress, hp⟩ hstored
      · rintro _ w' rfl
        exact ⟨rfl, rfl⟩

end Registry

end Allowance
