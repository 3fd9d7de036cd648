import Allowance.Proofs.Registry.Course
import Allowance.Proofs.Registry.Drafts

/-! # The registry reads back what it wrote

A record goes through its wire form whenever it is stored. What an operation returns is equal to
what is read back, up to the order in which sets are listed, as long as the operation sets flags to
booleans and blocks actions. It stays stored until an operation changes that policy again, and only
linkings change a policy that they do not name.
-/

namespace Allowance

open Checked

def Json.IsFlag (v : Json) : Prop := ∃ b, v = .bool b

def BlockedEntry.AreActions (entries : List BlockedEntry) : Prop :=
  ∀ entry ∈ entries, ∃ a, entry = .action a

namespace PolicyRecord

variable {p q : PolicyRecord} {v : Json}

/-- The flags of a record are booleans, and what it blocks are actions. -/
structure Regular (p : PolicyRecord) : Prop where
  restrictToBase : p.restrictToBase.IsFlag
  allowSignMessages : p.allowSignMessages.IsFlag
  isActive : p.isActive.IsFlag
  blockedActions : BlockedEntry.AreActions p.blockedActions

/-- Two records are equal, up to the order in which their sets are listed. -/
structure Equals (q p : PolicyRecord) : Prop where
  agrees : q.Agrees p
  restrictToBase : q.restrictToBase = p.restrictToBase
  allowSignMessages : q.allowSignMessages = p.allowSignMessages
  isActive : q.isActive = p.isActive
  blockedActions : ∀ entry, entry ∈ q.blockedActions ↔ entry ∈ p.blockedActions

structure SameOrigin (q p : PolicyRecord) : Prop where
  id : q.id = p.id
  parent : q.parent = p.parent
  createdAt : q.createdAt = p.createdAt

theorem SameOrigin.trans {o : PolicyRecord} (h : o.SameOrigin q) (h' : q.SameOrigin p) :
    o.SameOrigin p :=
  ⟨h.id.trans h'.id, h.parent.trans h'.parent, h.createdAt.trans h'.createdAt⟩

theorem Agrees.sameOrigin (h : q.Agrees p) : q.SameOrigin p := ⟨h.id, h.parent, h.createdAt⟩

theorem isFlag_of_flag {name : String} {default : Bool} {u : Json}
    (h : flag v name default = .ok u) : u.IsFlag := by
  obtain ⟨found, _, h⟩ := bind_eq_ok.mp h
  exact ⟨_, (pure_eq_ok.mp h).symm⟩

theorem regular_of_ofJson (h : ofJson v = .ok p) : p.Regular := by
  simp only [ofJson, bind_eq_ok] at h
  obtain ⟨_, -, _, -, _, -, _, -, _, -, _, -, _, -, base, hbase, _, -, h⟩ := h
  split at h
  all_goals
    simp only [bind_eq_ok] at h
    obtain ⟨_, -, _, -, _, -, _, -, _, -, _, -, signing, hsigning, active, hactive, h⟩ := h
    split at h
    all_goals
      simp only [bind_eq_ok, pure_eq_ok] at h
      obtain ⟨_, -, _, -, _, -, rfl⟩ := h
      exact ⟨isFlag_of_flag hbase, isFlag_of_flag hsigning, isFlag_of_flag hactive, by
        simp [BlockedEntry.AreActions]⟩

theorem Agrees.equals (h : q.Agrees p) (hq : q.Regular) (hp : p.Regular) : q.Equals p := by
  have hflag {u v : Json} (hu : u.IsFlag) (hv : v.IsFlag) (htruthy : u.truthy = v.truthy) :
      u = v := by
    obtain ⟨b, rfl⟩ := hu
    obtain ⟨b', rfl⟩ := hv
    exact congrArg Json.bool htruthy
  refine ⟨h, hflag hq.restrictToBase hp.restrictToBase h.restrictToBase,
    hflag hq.allowSignMessages hp.allowSignMessages h.allowSignMessages,
    hflag hq.isActive hp.isActive h.isActive, fun entry => ?_⟩
  constructor
  · intro hentry
    obtain ⟨a, rfl⟩ := hq.blockedActions entry hentry
    exact (h.blockedActions a).mp hentry
  · intro hentry
    obtain ⟨a, rfl⟩ := hp.blockedActions entry hentry
    exact (h.blockedActions a).mpr hentry

theorem Regular.with_child (h : p.Regular) (child updatedAt : Json) :
    Regular { p with child, updatedAt } :=
  { h with }

theorem actions_of_blockedSet {b : BlockedActions} {entries : List BlockedEntry}
    (hb : ∀ given, b.entries = .ok given → BlockedEntry.AreActions given)
    (h : blockedSet b = .ok entries) : BlockedEntry.AreActions entries := by
  obtain ⟨given, hgiven, h⟩ := bind_eq_ok.mp h
  obtain rfl := pure_eq_ok.mp h
  intro entry hentry
  rcases List.mem_append.mp hentry with hentry | hentry
  · exact hb given hgiven entry hentry
  · obtain ⟨a, _, rfl⟩ := List.mem_map.mp hentry
    exact ⟨a, rfl⟩

end PolicyRecord

def BlockedActions.AreActions (b : BlockedActions) : Prop :=
  ∀ entries, b.entries = .ok entries → BlockedEntry.AreActions entries

structure Draft.Regular (d : Draft) : Prop where
  restrictToBase : d.restrictToBase.IsFlag
  allowSignMessages : d.allowSignMessages.IsFlag
  isActive : d.isActive.IsFlag
  blockedActions : d.blockedActions.AreActions

structure Changes.Regular (c : Changes) : Prop where
  restrictToBase : ∀ v, c.restrictToBase = some v → v.IsFlag
  allowSignMessages : ∀ v, c.allowSignMessages = some v → v.IsFlag
  isActive : ∀ v, c.isActive = some v → v.IsFlag
  blockedActions : ∀ b, c.blockedActions = some b → b.AreActions

def Operation.Regular : Operation → Prop
  | .create _ draft => draft.Regular
  | .update _ c => c.Regular
  | .toggle _ entry => ∃ a, entry = .action a
  | .setActive _ active => active.IsFlag
  | _ => True

theorem Draft.Regular.toRecord {d : Draft} {parent id createdAt : Json} {p : PolicyRecord}
    (h : d.Regular) (hp : d.toRecord parent id createdAt = .ok p) : p.Regular := by
  obtain ⟨_, _, _, _, _, hblocked, rfl⟩ := Draft.toRecord_eq_ok.mp hp
  exact ⟨h.restrictToBase, h.allowSignMessages, h.isActive,
    PolicyRecord.actions_of_blockedSet h.blockedActions hblocked⟩

namespace Changes

variable {c : Changes} {p q old : PolicyRecord}

theorem Regular.apply (h : c.Regular) (hq : c.apply p = .ok q) (hp : p.Regular) : q.Regular := by
  have hflag {new : Option Json} {v : Json} (hnew : ∀ u, new = some u → u.IsFlag)
      (hv : v.IsFlag) : (new.getD v).IsFlag := by
    cases new with
    | none => exact hv
    | some u => exact hnew u rfl
  obtain ⟨_, _, blocked, _, _, hblocked, rfl⟩ := apply_eq_ok.mp hq
  refine ⟨hflag h.restrictToBase hp.restrictToBase, hflag h.allowSignMessages hp.allowSignMessages,
    hflag h.isActive hp.isActive, ?_⟩
  cases hb : c.blockedActions with
  | none =>
    obtain rfl : p.blockedActions = blocked := by simpa [hb, changed] using hblocked
    exact hp.blockedActions
  | some b =>
    rw [hb] at hblocked
    exact PolicyRecord.actions_of_blockedSet (h.blockedActions b hb) hblocked

/-- A record differs from the one before in the fields that changes name, in the time of its update,
and in its document if this depends on a named field. -/
structure OnlyNamed (c : Changes) (old p : PolicyRecord) : Prop where
  id : p.id = old.id
  parent : p.parent = old.parent
  child : p.child = old.child
  createdAt : p.createdAt = old.createdAt
  name : c.name = none → p.name = old.name
  usdLimit : c.usdLimit = none → p.usdLimit = old.usdLimit
  restrictToBase : c.restrictToBase = none → p.restrictToBase = old.restrictToBase
  allowedChains : c.allowedChains = none → p.allowedChains = old.allowedChains
  allowedAddresses : c.allowedAddresses = none → p.allowedAddresses = old.allowedAddresses
  blockedActions : c.blockedActions = none → p.blockedActions = old.blockedActions
  allowSignMessages : c.allowSignMessages = none → p.allowSignMessages = old.allowSignMessages
  isActive : c.isActive = none → p.isActive = old.isActive
  document : c.compiledFields = [] → p.document = old.document

theorem changed_of_none {α β : Type} {new : Option α} {form : α → Checked β} {v u : β}
    (h : changed new form v = .ok u) (hnew : new = none) : u = v := by
  subst hnew
  exact (Except.ok.inj h).symm

end Changes

namespace Registry

variable {r : Registry} {w w' : World} {t : Tables} {p q old : PolicyRecord} {id : String}
  {o : Operation} {c : Changes} {v : Json}

theorem Changed.onlyNamed (h : r.Changed c old p) : c.OnlyNamed old p := by
  obtain ⟨⟨changed, now, document, happly, rfl⟩, hkept, -⟩ := h
  obtain ⟨chains, addresses, blocked, hchains, haddresses, hblocked, rfl⟩ :=
    Changes.apply_eq_ok.mp happly
  constructor
  case allowedChains => exact Changes.changed_of_none hchains
  case allowedAddresses => exact Changes.changed_of_none haddresses
  case blockedActions => exact Changes.changed_of_none hblocked
  case document => exact fun hc => hkept (by simp [hc])
  all_goals
    first
      | rfl
      | intro hc; simp [hc]

theorem Changed.regular (h : r.Changed c old p) (hc : c.Regular) (hold : old.Regular) :
    p.Regular := by
  obtain ⟨⟨changed, now, document, happly, rfl⟩, -, -⟩ := h
  exact { hc.apply happly hold with }

theorem Holds.regular (h : r.Holds w t) (hp : t.policy id = some p) : p.Regular := by
  obtain ⟨v, -, ⟨-, hnone⟩ | ⟨-, q, hq, hread⟩⟩ := h.policies.get id
  · simp [hp] at hnone
  · obtain rfl := Option.some.inj (hp.symm.trans hq)
    exact PolicyRecord.regular_of_ofJson hread

theorem Asks.regular (h : Asks id old o c) (ho : o.Regular) (hold : old.Regular) : c.Regular := by
  cases h with
  | update => exact ho
  | setActive active =>
    refine ⟨nofun, nofun, ?_, nofun⟩
    rintro _ ⟨⟩
    exact ho
  | toggle h =>
    obtain ⟨a, rfl⟩ := ho
    obtain rfl := Except.ok.inj h
    refine ⟨nofun, nofun, nofun, ?_⟩
    rintro _ ⟨⟩ entries hentries entry hentry
    obtain rfl := Except.ok.inj hentries
    unfold BlockedEntry.toggle at hentry
    split at hentry
    · exact hold.blockedActions entry (List.mem_filter.mp hentry).1
    · rcases List.mem_append.mp hentry with hentry | hentry
      · exact hold.blockedActions entry hentry
      · exact ⟨a, List.mem_singleton.mp hentry⟩

theorem Outcome.stored {policies' : String → Option PolicyRecord}
    (h : r.Outcome w t.policy o (.policy p) policies') (hholds : r.Holds w t) (ht : t.Valid r)
    (ho : o.Regular) (hread : ∀ id q, policies' id = some q → q.Regular) :
    ∃ id q, p.id = .string id ∧ q.Equals p ∧ policies' id = some q := by
  cases h with
  | @created parent draft p q hnew hp hq =>
    obtain ⟨_, blank, document, hblank, _, rfl⟩ := hp
    have hregular := Draft.Regular.toRecord ho hblank
    have hread := hread (w.sources.id w.ids) q (Function.update_self ..)
    exact ⟨_, q, rfl, hq.equals hread { hregular with }, Function.update_self ..⟩
  | @changed _ id c old p q hasks hold hp hq =>
    have hregular := hp.regular (hasks.regular ho (hholds.regular hold)) (hholds.regular hold)
    have hread := hread id q (Function.update_self ..)
    exact ⟨id, q, hp.onlyNamed.id.trans (ht.sound id old hold).id, hq.equals hread hregular,
      Function.update_self ..⟩
  | @linked id address now old q taken hold haddress hq htaken =>
    have hregular := (hholds.regular hold).with_child (.string address) (.number now)
    have hread := hread id q (Function.update_self ..)
    exact ⟨id, q, (ht.sound id old hold).id, hq.equals hread hregular, Function.update_self ..⟩

theorem Outcome.origin {a : Answer} {policies policies' : String → Option PolicyRecord}
    (h : r.Outcome w policies o a policies') (hp : policies id = some p)
    (hkept : o ≠ .delete (.string id)) : ∃ q, policies' id = some q ∧ q.SameOrigin p := by
  by_cases hnames : o.Names id
  · cases h with
    | created => exact hnames.elim
    | @changed _ id' c old p' q hasks hold hchanged hq =>
      obtain rfl := hnames.unique hasks.names
      obtain rfl := Option.some.inj (hp.symm.trans hold)
      have hnamed := hchanged.onlyNamed
      exact ⟨q, Function.update_self ..,
        hq.sameOrigin.trans ⟨hnamed.id, hnamed.parent, hnamed.createdAt⟩⟩
    | @linked id' address now old q taken hold haddress hq htaken =>
      obtain rfl := Json.string.inj hnames
      obtain rfl := Option.some.inj (hp.symm.trans hold)
      exact ⟨q, Function.update_self .., hq.id, hq.parent, hq.createdAt⟩
    | deleted => exact absurd (congrArg Operation.delete hnames) hkept
  · obtain hsame | ⟨_, _, q, _, _, _, hq, hstored⟩ := h.frame hp hnames
    · exact ⟨p, hsame, rfl, rfl, rfl⟩
    · exact ⟨q, hstored, hq.id, hq.parent, hq.createdAt⟩

/-- The operation fails, or it neither names a policy nor links its child. -/
def Leaves (r : Registry) (id : String) (w : World) (o : Operation) : Prop :=
  (∃ e, ((r.operate o).perform w).1 = .error e) ∨ ¬ o.Names id ∧
    ∀ v address p, o = .link v (.string address) → r.Stores w id p →
      ¬ p.HasChild (Address.key address)

/-- An operation that does not name a policy changes its record only by taking its child away. -/
theorem Reachable.frame (h : r.Reachable w) (hfresh : r.FreshFor w o) (hp : r.Stores w id p)
    (hnot : ¬ o.Names id) : r.Stores (r.after w o) id p ∨ ∃ v address q now,
      o = .link v (.string address) ∧ p.HasChild (Address.key address) ∧
      q.Equals { p with child := .null, updatedAt := .number now } ∧
      r.Stores (r.after w o) id q := by
  obtain ⟨t, t', hholds, -, hholds', -, ⟨a, -, houtcome⟩ | ⟨e, -, hsame⟩⟩ := h.after_cases hfresh
  · have hp := hholds.stores_iff.mp hp
    refine (houtcome.frame hp hnot).imp hholds'.stores_iff.mpr ?_
    rintro ⟨v, address, q, now, ho, hchild, hq, hstored⟩
    have hregular := (hholds.regular hp).with_child .null (.number now)
    exact ⟨v, address, q, now, ho, hchild, hq.equals (hholds'.regular hstored) hregular,
      hholds'.stores_iff.mpr hstored⟩
  · rw [hholds.stores_iff, ← hsame] at hp
    exact Or.inl (hholds'.stores_iff.mpr hp)

theorem Reachable.stores_of_leaves (h : r.Reachable w) (hfresh : r.FreshFor w o)
    (hp : r.Stores w id p) (hleaves : r.Leaves id w o) : r.Stores (r.after w o) id p := by
  obtain ⟨e, he⟩ | ⟨hnot, hlink⟩ := hleaves
  · obtain ⟨t, t', hholds, -, hholds', -, ⟨a, ha, -⟩ | ⟨_, -, hsame⟩⟩ := h.after_cases hfresh
    · simp [he] at ha
    · rw [hholds.stores_iff, ← hsame] at hp
      exact hholds'.stores_iff.mpr hp
  · obtain hsame | ⟨v, address, _, _, ho, hchild, -⟩ := h.frame hfresh hp hnot
    · exact hsame
    · exact absurd hchild (hlink v address p ho hp)

theorem Reachable.origin (h : r.Reachable w) (hfresh : r.FreshFor w o) (hp : r.Stores w id p)
    (hkept : o ≠ .delete (.string id)) :
    ∃ q, r.Stores (r.after w o) id q ∧ q.SameOrigin p := by
  obtain ⟨t, t', hholds, -, hholds', -, ⟨a, -, houtcome⟩ | ⟨e, -, hsame⟩⟩ := h.after_cases hfresh
  · obtain ⟨q, hq, horigin⟩ := houtcome.origin (hholds.stores_iff.mp hp) hkept
    exact ⟨q, hholds'.stores_iff.mpr hq, horigin⟩
  · rw [hholds.stores_iff, ← hsame] at hp
    exact ⟨p, hholds'.stores_iff.mpr hp, rfl, rfl, rfl⟩

/-- What an operation returns is read back, at once and for as long as operations leave it alone. -/
theorem Reachable.returned (h : r.Reachable w) (hfresh : r.FreshFor w o) (ho : o.Regular)
    (hp : ((r.operate o).perform w).1 = .ok (.policy p)) : ∃ id q, p.id = .string id ∧
      q.Equals p ∧ ∀ ops w', r.Course (r.Leaves id) (r.after w o) ops w' → r.Stores w' id q := by
  obtain ⟨t, t', hholds, ht, hholds', -, ⟨a, ha, houtcome⟩ | ⟨e, he, -⟩⟩ := h.after_cases hfresh
  · obtain rfl := Except.ok.inj (hp.symm.trans ha)
    obtain ⟨id, q, hid, hequals, hstored⟩ := houtcome.stored hholds ht ho fun _ _ => hholds'.regular
    refine ⟨id, q, hid, hequals, fun ops w' hc => ?_⟩
    obtain ⟨_, hstays, rfl⟩ := hc.follows (R := fun _ other => other = q) (.operation o h hfresh)
      (hholds'.stores_iff.mpr hstored) rfl fun u ops o other hu hfresh hleaves hother heq =>
        ⟨other, hu.stores_of_leaves hfresh hother hleaves, heq⟩
    exact hstays
  · simp [hp] at he

theorem Reachable.named (h : r.Reachable w)
    (hp : ((r.update v c).perform w).1 = .ok p) :
    ∃ id old, v = .string id ∧ r.Stores w id old ∧ c.OnlyNamed old p := by
  have hfresh : r.FreshFor w (.update v c) := trivial
  have hanswer : ((r.operate (.update v c)).perform w).1 = .ok (.policy p) := by
    simp [operate, hp, Except.map]
  obtain ⟨t, t', hholds, -, -, -, ⟨a, ha, houtcome⟩ | ⟨e, he, -⟩⟩ := h.after_cases hfresh
  · obtain rfl := Except.ok.inj (hanswer.symm.trans ha)
    generalize t'.policy = policies at houtcome
    cases houtcome with
    | @changed _ id _ old _ q hasks hold hchanged hq =>
      cases hasks
      exact ⟨id, old, rfl, hholds.stores_iff.mpr hold, hchanged.onlyNamed⟩
  · simp [hanswer] at he

/-- The registry reads back what it wrote. What an operation returns is equal to what is stored,
from then on until an operation changes that policy. An update changes the named fields only, the
origin of a policy never changes, and no operation changes another policy except that a linking
takes the child from the policy that had it. -/
theorem Reachable.reads_back (h : r.Reachable w) (hfresh : r.FreshFor w o) (ho : o.Regular) :
    (∀ p, ((r.operate o).perform w).1 = .ok (.policy p) → ∃ id q, p.id = .string id ∧
      q.Equals p ∧ ∀ ops w', r.Course (r.Leaves id) (r.after w o) ops w' → r.Stores w' id q) ∧
    (∀ v c p, o = .update v c → ((r.update v c).perform w).1 = .ok p →
      ∃ id old, v = .string id ∧ r.Stores w id old ∧ c.OnlyNamed old p) ∧
    (∀ id p ops w', r.Stores w id p →
      r.Course (fun _ o => o ≠ .delete (.string id)) w ops w' →
      ∃ q, r.Stores w' id q ∧ q.SameOrigin p) ∧
    ∀ id p, r.Stores w id p → ¬ o.Names id → r.Stores (r.after w o) id p ∨
      ∃ v address q now, o = .link v (.string address) ∧ p.HasChild (Address.key address) ∧
        q.Equals { p with child := .null, updatedAt := .number now } ∧
        r.Stores (r.after w o) id q := by
  refine ⟨fun p hp => h.returned hfresh ho hp, ?_, ?_, fun id p hp => h.frame hfresh hp⟩
  · rintro v c p - hp
    exact h.named hp
  · intro id p ops w' hp hc
    refine hc.follows (R := fun _ q => q.SameOrigin p) h hp ⟨rfl, rfl, rfl⟩ ?_
    intro u ops o q hu hfresh hkept hq horigin
    obtain ⟨q', hq', horigin'⟩ := hu.origin hfresh hq hkept
    exact ⟨q', hq', horigin'.trans horigin⟩

theorem Reachable.link_answers (h : r.Reachable w) (hp : r.Stores w id p) {address : String}
    (haddress : Address.isAddress address = true) : ∃ linked,
      ((r.operate (.link (.string id) (.string address))).perform w).1 = .ok (.policy linked) := by
  obtain ⟨t, hholds, ht⟩ := h.consistent
  obtain ⟨linked, w', hlink⟩ := (hholds.link_stored ht.sound ht.link_names haddress
    (hholds.stores_iff.mp hp)).succeeds
  exact ⟨linked, by simp [operate, hlink, Except.map]⟩

def relinked : Operation := .link (.string "weekly") (.string daughter)

theorem household_reads_back : household.Reachable evening ∧ household.FreshFor evening relinked ∧
    relinked.Regular ∧ ∃ p id q,
      ((household.operate relinked).perform evening).1 = .ok (.policy p) ∧ p.id = .string id ∧
      q.Equals p ∧ household.Stores (household.after evening relinked) id q := by
  have hfresh : household.FreshFor evening relinked := trivial
  have hregular : relinked.Regular := trivial
  have hdaughter : Address.isAddress daughter = true := by decide
  refine ⟨household_reachable, hfresh, hregular, ?_⟩
  obtain ⟨t, weekly, hholds, -, hgov, -⟩ := household_governs
  have hstored := hholds.stores_iff.mpr hgov.policy
  obtain ⟨p, hp⟩ := household_reachable.link_answers hstored hdaughter
  obtain ⟨hreturned, -⟩ := Reachable.reads_back household_reachable hfresh hregular
  obtain ⟨id, q, hid, hequals, hstays⟩ := hreturned p hp
  exact ⟨p, id, q, hp, hid, hequals, hstays [] _ .refl⟩

end Registry

end Allowance
