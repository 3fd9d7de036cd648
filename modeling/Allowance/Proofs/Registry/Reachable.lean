import Allowance.Proofs.Registry.Invariant

/-! # Reachable worlds

A world is reachable when it starts with blank records and goes on by operations of the registry,
whether they succeed or fail, and by whatever leaves files and published documents alone. In every
reachable world the registry holds valid tables.
-/

namespace Allowance

open Checked

inductive Operation
  | create (parent : Json) (draft : Draft)
  | update (id : Json) (changes : Changes)
  | toggle (id : Json) (entry : BlockedEntry)
  | setActive (id active : Json)
  | link (id child : Json)
  | delete (id : Json)

namespace Registry

variable {r : Registry} {w w' : World} {t : Tables} {id : String} {p : PolicyRecord}

/-- The world after an operation, whether it succeeded or failed. -/
def after (r : Registry) (w : World) : Operation → World
  | .create parent draft => ((r.create parent draft).perform w).2
  | .update id changes => ((r.update id changes).perform w).2
  | .toggle id entry => ((r.toggle id entry).perform w).2
  | .setActive id active => ((r.setActive id active).perform w).2
  | .link id child => ((r.link id child).perform w).2
  | .delete id => ((r.delete id).perform w).2

def Stores (r : Registry) (w : World) (id : String) (p : PolicyRecord) : Prop :=
  ((r.get (.string id)).perform w).1 = .ok p

def FreshFor (r : Registry) (w : World) : Operation → Prop
  | .create _ _ => ∀ p, ¬ r.Stores w (w.sources.id w.ids) p
  | _ => True

structure Blank (r : Registry) (w : World) : Prop where
  separate : r.Separate
  policies : State.Section w.disk r.path State.policies []
  links : State.Section w.disk r.path State.links []
  published : match r.shelf with
    | .memory => w.shelf = []
    | .file path => State.Section w.disk path State.publications []

inductive Reachable (r : Registry) : World → Prop
  | blank {w : World} : r.Blank w → Reachable r w
  | operation {w : World} (o : Operation) :
      Reachable r w → r.FreshFor w o → Reachable r (r.after w o)
  | elsewhere {w w' : World} :
      Reachable r w → w'.disk = w.disk → w'.shelf = w.shelf → Reachable r w'

theorem Holds.stores_iff (h : r.Holds w t) : r.Stores w id p ↔ t.policy id = some p := by
  rw [Stores, h.get]
  cases t.policy id <;> simp

theorem Tables.blank_of_section {α : Type} {d : Disk} {path name : String} {read : Json → Checked α}
    (h : State.Section d path name []) : State.Table d path name read fun _ => none :=
  ⟨[], h, fun _ => .none⟩

theorem Blank.holds (h : r.Blank w) :
    r.Holds w ⟨fun _ => none, fun _ => none, fun _ => none⟩ := by
  refine ⟨h.separate, Tables.blank_of_section h.policies, Tables.blank_of_section h.links, ?_⟩
  have hpublished := h.published
  cases hshelf : r.shelf with
  | memory =>
    rw [hshelf] at hpublished
    simp [Shelf.Holds, hpublished]
  | file path =>
    rw [hshelf] at hpublished
    exact Tables.blank_of_section hpublished

theorem Tables.valid_blank : Valid r ⟨fun _ => none, fun _ => none, fun _ => none⟩ :=
  ⟨nofun, fun _ => Or.inl ⟨nofun, rfl, rfl⟩⟩

def Consistent (r : Registry) (w : World) : Prop := ∃ t, r.Holds w t ∧ t.Valid r

theorem Updated.consistent {v : Json} {c : Changes} {now : Number} (ht : t.Valid r)
    (h : r.Updated t v c now p w') : r.Consistent w' := by
  obtain ⟨key, old, changed, document, q, rfl, hold, hchanged, rfl, hagrees, hq, hholds⟩ := h
  have hkeeps := Changes.keeps_of_apply hchanged
  have hchild : q.child = old.child := hagrees.child.trans hkeeps.child
  have hparent : q.parent = old.parent := hagrees.parent.trans hkeeps.parent
  exact ⟨_, hholds, ht.update hold hq hchild hparent⟩

theorem Linked.governs {v child : Json} (ht : t.Valid r) (h : r.Linked w t v child p w') :
    ∃ id address t' q, v = .string id ∧ child = .string address ∧ r.Holds w' t' ∧ t'.Valid r ∧
      t'.Governs id q (Address.key address) ∧ q.Agrees p ∧
      ∃ old now, t.policy id = some old ∧ p = { old with child, updatedAt := .number now } := by
  obtain ⟨id, address, old, now, q, t', rfl, rfl, haddress, hold, _, rfl, hagrees, hq, hreleased,
    hholds⟩ := h
  have hchild : q.HasChild (Address.key address) := ⟨address, hagrees.child, haddress, rfl⟩
  have hvalid := ht.link hold hq hchild hreleased
  have hpolicy : (t'.attach id (Address.key address) q).policy id = some q := by
    simp [Tables.attach_policy, Tables.store]
  exact ⟨id, address, _, q, rfl, rfl, hholds, hvalid,
    (hvalid.settled _).governs hpolicy hchild, hagrees, old, now, hold, rfl⟩

theorem Linked.consistent {v child : Json} (ht : t.Valid r) (h : r.Linked w t v child p w') :
    r.Consistent w' := by
  obtain ⟨_, _, t', _, _, _, hholds, hvalid, _⟩ := h.governs ht
  exact ⟨t', hholds, hvalid⟩

theorem Holds.link_governs {address : String} (h : r.Holds w t) (ht : t.Valid r)
    (haddress : Address.isAddress address = true) (hp : t.policy id = some p) :
    ∃ t' q, r.Holds (r.after w (.link (.string id) (.string address))) t' ∧ t'.Valid r ∧
      t'.Governs id q (Address.key address) ∧
      ∃ now, q.Agrees { p with child := .string address, updatedAt := .number now } := by
  refine (h.link_stored ht.sound ht.link_names haddress hp).world
    (P := fun w' => ∃ t' q, r.Holds w' t' ∧ t'.Valid r ∧ t'.Governs id q (Address.key address) ∧
      ∃ now, q.Agrees { p with child := .string address, updatedAt := .number now })
    (fun linked w' hl => ?_) fun _ _ hfalse => hfalse.elim
  obtain ⟨_, _, t', q, hid, hchild, hholds, hvalid, hgov, hagrees, old, now, hold, rfl⟩ :=
    hl.governs ht
  obtain rfl := Json.string.inj hid
  obtain rfl := Json.string.inj hchild
  obtain rfl := Option.some.inj (hp.symm.trans hold)
  exact ⟨t', q, hholds, hvalid, hgov, now, hagrees⟩

/-- What an operation leaves behind is consistent, whether it succeeds or fails. -/
theorem Holds.after_consistent (h : r.Holds w t) (ht : t.Valid r) {o : Operation}
    (hfresh : r.FreshFor w o) : r.Consistent (r.after w o) := by
  have hfailed : ∀ (e : Fault) w', w.Kept w' → r.Consistent w' :=
    fun _ _ hkept => ⟨t, h.kept hkept, ht⟩
  cases o with
  | create parent draft =>
    have hnone : t.policy (w.sources.id w.ids) = none :=
      Option.eq_none_iff_forall_ne_some.mpr fun p hp => hfresh p (h.stores_iff.mpr hp)
    refine h.create.world (fun p w' => ?_) hfailed
    rintro ⟨hdrafted, ⟨q, hagrees, hq, hholds⟩, _, _⟩
    exact ⟨_, hholds, ht.create hnone hq (hagrees.child.trans hdrafted.spec.2.1)⟩
  | update id changes =>
    exact (h.update ht.sound).world (fun _ _ hu => hu.consistent ht) hfailed
  | toggle id entry =>
    refine (h.toggle ht.sound).world ?_ hfailed
    rintro p w' ⟨_, _, _, _, _, hu⟩
    exact hu.consistent ht
  | setActive id active =>
    exact (h.update ht.sound).world (fun _ _ hu => hu.consistent ht) hfailed
  | link id child =>
    exact (h.link ht.sound ht.link_names).world (fun _ _ hl => hl.consistent ht) hfailed
  | delete id =>
    refine (h.delete ht.sound).world ?_ hfailed
    rintro _ w' ⟨key, old, _, hold, hholds⟩
    exact ⟨_, hholds, ht.delete hold⟩

theorem Reachable.consistent (h : r.Reachable w) : r.Consistent w := by
  induction h with
  | blank hblank => exact ⟨_, hblank.holds, Tables.valid_blank⟩
  | operation o _ hfresh ih =>
    obtain ⟨t, hholds, ht⟩ := ih
    exact hholds.after_consistent ht hfresh
  | elsewhere _ hdisk hshelf ih =>
    obtain ⟨t, hholds, ht⟩ := ih
    exact ⟨t, hholds.congr hdisk hshelf, ht⟩

section Household

/-- A registry that keeps everything in one file. -/
def household : Registry where
  path := "state.json"
  shelf := .file "state.json"

/-- A world with an empty state file, in which the clock stands still. -/
def morning : World where
  sources := ⟨fun _ => 1000, fun _ => "weekly", fun _ => .badUrl, fun _ => .failure ""⟩
  disk := { files := [("state.json", .state (.object []))] }

def mother : String := "0x52908400098527886e0f7030069857d2e4169ee7"

def daughter : String := "0xde709f2102306220921060314715629080e2fb77"

def weekly : Draft := { usdLimit := .int 15, allowedChains := .ofTexts ["8453"] }

def weeklyDocument : Document :=
  Settings.document ⟨["8453"], some 15, [], [], false, none, none⟩ (.string defaultPartner)

def weeklyRecord : PolicyRecord where
  id := .null
  name := .string "Child Allowance Policy"
  parent := .string mother
  child := .null
  usdLimit := .int 15
  restrictToBase := .bool false
  allowedChains := [.string "8453"]
  allowedAddresses := none
  blockedActions := Action.mandatory.map .action
  allowSignMessages := .bool false
  isActive := .bool true
  document := none
  createdAt := .int 1000
  updatedAt := .int 1000

def noon : World := household.after morning (.create (.string mother) weekly)

def evening : World := household.after noon (.link (.string "weekly") (.string daughter))

theorem household_blank : household.Blank morning := by
  have hstate : morning.disk.state? household.path = .ok (State.withSections []) := rfl
  refine ⟨?_, ⟨_, hstate, rfl⟩, ⟨_, hstate, rfl⟩, ⟨_, hstate, rfl⟩⟩
  rintro path ⟨⟩
  exact Or.inl rfl

theorem household_reachable : household.Reachable evening := by
  have hfresh : household.FreshFor morning (.create (.string mother) weekly) := by
    intro p hp
    cases household_blank.holds.stores_iff.mp hp
  exact .operation _ (.operation _ (.blank household_blank) hfresh) trivial

theorem weekly_compile :
    household.compile { weeklyRecord with id := .string "weekly" } = .ok weeklyDocument := by
  refine Options.compile_eq_ok.mpr ⟨_, Options.check_eq_ok.mpr
    ⟨gives_iff.mp ?_, gives_iff.mp ?_, gives_iff.mp ?_, gives_iff.mp ?_, ⟨_, rfl, ?_⟩, rfl⟩, rfl⟩
  all_goals decide +kernel

theorem weekly_toJson : ∃ v, PolicyRecord.toJson { weeklyRecord with
    id := .string "weekly", document := some weeklyDocument } = .ok v := by
  have hblocked := PolicyRecord.blockedWords_actions Action.mandatory
  have hchains : Json.sorted [.string "8453"] = .ok [.string "8453"] :=
    Json.sorted_eq_ok.mpr ⟨rfl, List.mergeSort_singleton _⟩
  simp [PolicyRecord.toJson, weeklyRecord, hblocked, hchains]

theorem household_governs : ∃ t q, household.Holds evening t ∧ t.Valid household ∧
    t.Governs "weekly" q daughter ∧ q.isActive.truthy = true ∧
    q.document = some weeklyDocument := by
  obtain ⟨v, hv⟩ := weekly_toJson
  have hmother : Address.isAddressValue (.string mother) = true := by decide
  have hdaughter : Address.isAddress daughter = true := by decide
  have hrecord : weekly.toRecord (.string mother) .null (.number 1000) = .ok weeklyRecord := rfl
  obtain ⟨p, hp, hsound, hnoon⟩ :=
    household_blank.holds.create_stored rfl rfl hmother hrecord weekly_compile hv
  have hvalid := Tables.valid_blank.create rfl hsound hp.child
  obtain ⟨t, q, hevening, ht, hgov, now, hq⟩ :=
    hnoon.link_governs hvalid hdaughter (Function.update_self ..)
  exact ⟨t, q, hevening, ht, hgov, hq.isActive.trans hp.isActive, hq.document.trans hp.document⟩

end Household

end Registry

end Allowance
