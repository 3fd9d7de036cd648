import Allowance.Proofs.Document.Wire
import Allowance.Proofs.Settings.Order
import Allowance.Registry.Publication
import Allowance.Registry.Record

/-! # Records survive the state file

A policy record is written with its sets in increasing order and its flags as they came, and read
back with the sets in that order and the flags as booleans. What is read back agrees with what was
written: every field is the same, counts the same or has the same members. Links and publications
are read back as they were.
-/

namespace Allowance

open Checked

namespace PolicyRecord

variable {p q : PolicyRecord} {v : Json}

/-- What a record needs so that it can be written and read back: sets that can be sorted, blocked
actions that are actions, and a well-formed document. -/
structure Storable (p : PolicyRecord) : Prop where
  chains : Json.IsSet p.allowedChains
  chainsSorted : ∃ vs, Json.sorted p.allowedChains = .ok vs
  addresses : ∀ vs, p.allowedAddresses = some vs → Json.IsSet vs ∧ ∃ ws, Json.sorted vs = .ok ws
  blocked : ∀ entry ∈ p.blockedActions, ∃ a, entry = .action a
  document : ∀ d, p.document = some d → d.WellFormed

/-- The first record says what the second says. -/
structure Agrees (q p : PolicyRecord) : Prop where
  id : q.id = p.id
  name : q.name = p.name
  parent : q.parent = p.parent
  child : q.child = p.child
  usdLimit : q.usdLimit = p.usdLimit
  restrictToBase : q.restrictToBase.truthy = p.restrictToBase.truthy
  allowedChains : p.allowedChains.Perm q.allowedChains
  allowedAddresses : Option.Rel List.Perm p.allowedAddresses q.allowedAddresses
  blockedActions : ∀ a, .action a ∈ q.blockedActions ↔ .action a ∈ p.blockedActions
  allowSignMessages : q.allowSignMessages.truthy = p.allowSignMessages.truthy
  isActive : q.isActive.truthy = p.isActive.truthy
  document : q.document = p.document
  createdAt : q.createdAt = p.createdAt
  updatedAt : q.updatedAt = p.updatedAt

theorem rel_trans {us vs ws : Option (List Json)} (h : Option.Rel List.Perm us vs)
    (h' : Option.Rel List.Perm vs ws) : Option.Rel List.Perm us ws := by
  cases h with
  | none => exact h'
  | some hperm =>
    cases h' with
    | some hperm' => exact .some (hperm.trans hperm')

theorem Agrees.trans {o : PolicyRecord} (h : o.Agrees q) (h' : q.Agrees p) : o.Agrees p where
  id := h.id.trans h'.id
  name := h.name.trans h'.name
  parent := h.parent.trans h'.parent
  child := h.child.trans h'.child
  usdLimit := h.usdLimit.trans h'.usdLimit
  restrictToBase := h.restrictToBase.trans h'.restrictToBase
  allowedChains := h'.allowedChains.trans h.allowedChains
  allowedAddresses := rel_trans h'.allowedAddresses h.allowedAddresses
  blockedActions a := (h.blockedActions a).trans (h'.blockedActions a)
  allowSignMessages := h.allowSignMessages.trans h'.allowSignMessages
  isActive := h.isActive.trans h'.isActive
  document := h.document.trans h'.document
  createdAt := h.createdAt.trans h'.createdAt
  updatedAt := h.updatedAt.trans h'.updatedAt

theorem Agrees.refl (p : PolicyRecord) : p.Agrees p where
  id := rfl
  name := rfl
  parent := rfl
  child := rfl
  usdLimit := rfl
  restrictToBase := rfl
  allowedChains := .refl _
  allowedAddresses := by
    cases p.allowedAddresses with
    | none => exact .none
    | some vs => exact .some (.refl vs)
  blockedActions _ := .rfl
  allowSignMessages := rfl
  isActive := rfl
  document := rfl
  createdAt := rfl
  updatedAt := rfl

theorem rel_symm {us vs : Option (List Json)} (h : Option.Rel List.Perm us vs) :
    Option.Rel List.Perm vs us := by
  cases h with
  | none => exact .none
  | some hperm => exact .some hperm.symm

theorem Agrees.symm (h : q.Agrees p) : p.Agrees q where
  id := h.id.symm
  name := h.name.symm
  parent := h.parent.symm
  child := h.child.symm
  usdLimit := h.usdLimit.symm
  restrictToBase := h.restrictToBase.symm
  allowedChains := h.allowedChains.symm
  allowedAddresses := rel_symm h.allowedAddresses
  blockedActions a := (h.blockedActions a).symm
  allowSignMessages := h.allowSignMessages.symm
  isActive := h.isActive.symm
  document := h.document.symm
  createdAt := h.createdAt.symm
  updatedAt := h.updatedAt.symm

theorem Agrees.with_child (h : q.Agrees p) (child updatedAt : Json) :
    Agrees { q with child, updatedAt } { p with child, updatedAt } :=
  { h with child := rfl, updatedAt := rfl }

section Blocked

variable {actions : List Action} {entries : List BlockedEntry} {words : List String}

theorem exists_actions (h : ∀ entry ∈ entries, ∃ a, entry = .action a) :
    ∃ actions : List Action, entries = actions.map .action := by
  induction entries with
  | nil => exact ⟨[], rfl⟩
  | cons entry entries ih =>
    obtain ⟨a, rfl⟩ := h entry List.mem_cons_self
    obtain ⟨actions, rfl⟩ := ih fun other ho => h other (List.mem_cons_of_mem _ ho)
    exact ⟨a :: actions, rfl⟩

theorem actions_of_blockedWords (h : blockedWords entries = .ok words) :
    ∀ entry ∈ entries, ∃ a, entry = .action a := by
  obtain ⟨found, hfound, _⟩ := bind_eq_ok.mp h
  intro entry he
  obtain ⟨_, _, hword⟩ := exists_of_mapM hfound he
  cases entry with
  | action a => exact ⟨a, rfl⟩
  | foreign v => exact absurd hword misuse_ne_ok

theorem blockedWords_actions (actions : List Action) :
    blockedWords (actions.map .action) = .ok ((actions.map Action.word).mergeSort (· ≤ ·)) := by
  rw [blockedWords, mapM_map (h := Action.word) fun a _ => ?_]
  · rfl
  · rfl

def actionOf (v : Json) : Checked Action :=
  match v.text?.bind Action.ofWord? with
  | some a => .ok a
  | none => misuse .badValue

theorem actionsOf_eq (vs : List Json) :
    actionsOf vs = vs.mapM actionOf >>= fun actions => .ok actions.eraseDups := rfl

theorem actionsOf_words (hp : (actions.map Action.word).Perm words) :
    ∃ found, actionsOf (words.map Json.string) = .ok found ∧ ∀ a, a ∈ found ↔ a ∈ actions := by
  have hread : ((actions.map Action.word).map Json.string).mapM actionOf = .ok actions := by
    rw [List.map_map, mapM_map_self]
    intro a _
    simp [actionOf, Json.text?, Action.ofWord?_word]
  obtain ⟨found, hfound, hperm⟩ := mapM_of_perm (hp.map Json.string) hread
  refine ⟨found.eraseDups, ?_, fun a => by rw [List.mem_eraseDups, hperm.mem_iff]⟩
  rw [actionsOf_eq, hfound, ok_bind]

end Blocked

def wire (p : PolicyRecord) (chains : List Json) (addresses : Option (List Json))
    (words : List String) : Json := .object [
  ("id", p.id),
  ("name", p.name),
  ("parentWalletAddress", p.parent),
  ("childWalletAddress", p.child),
  ("usdLimit", p.usdLimit),
  ("restrictToBase", p.restrictToBase),
  ("allowedChains", .array chains),
  ("allowedAddresses", (addresses.map .array).getD .null),
  ("blockedActions", .ofTexts words),
  ("allowSignMessages", p.allowSignMessages),
  ("isActive", p.isActive),
  ("compiledDocument", .ofDocument? p.document),
  ("createdAt", p.createdAt),
  ("updatedAt", p.updatedAt)]

theorem toJson_eq (p : PolicyRecord) : p.toJson = do
    let chains ← Json.sorted p.allowedChains
    let addresses ← p.allowedAddresses.mapM Json.sorted
    let words ← blockedWords p.blockedActions
    return p.wire chains addresses words := by
  unfold toJson
  refine bind_congr fun chains => ?_
  cases p.allowedAddresses with
  | none => rfl
  | some vs =>
    rw [Option.mapM_some]
    dsimp only
    cases Json.sorted vs <;> rfl

theorem toJson_of_sorted {chains : List Json} {addresses : Option (List Json)}
    {words : List String} (hchains : Json.sorted p.allowedChains = .ok chains)
    (haddresses : p.allowedAddresses.mapM Json.sorted = .ok addresses)
    (hwords : blockedWords p.blockedActions = .ok words) :
    p.toJson = .ok (p.wire chains addresses words) := by
  rw [toJson_eq, hchains, ok_bind, haddresses, ok_bind, hwords, ok_bind]
  rfl

def addressesOf : Json → Checked (Option (List Json))
  | .null => .ok none
  | v => (v.parts.bind Json.members).map some

def documentOf (v : Json) : Checked (Option Document) :=
  if v.truthy then (Document.ofJson v).map some else .ok none

variable {chains : List Json} {addresses : Option (List Json)} {words : List String}
  {actions : List Action}

theorem addressesOf_wire (h : ∀ vs, addresses = some vs → Json.IsSet vs) :
    addressesOf ((addresses.map .array).getD .null) = .ok addresses := by
  cases addresses with
  | none => rfl
  | some vs => simp [addressesOf, Json.parts, Except.bind, Except.map, (h vs rfl).members_eq]

theorem documentOf_wire {document : Option Document} (h : ∀ d, document = some d → d.WellFormed) :
    documentOf (.ofDocument? document) = .ok document := by
  cases document with
  | none => rfl
  | some d =>
    have htruthy : d.toJson.truthy = true := rfl
    simp [documentOf, Json.ofDocument?, htruthy, Document.ofJson_toJson (h d rfl), Except.map]

/-- Which parts of the wire form of a record are read by checks. -/
theorem ofJson_wire_eq (p : PolicyRecord) (chains : List Json) (addresses : Option (List Json))
    (words : List String) : ofJson (p.wire chains addresses words) = do
    let allowedChains ← Json.members chains
    let allowedAddresses ← addressesOf ((addresses.map .array).getD .null)
    let actions ← actionsOf (words.map Json.string)
    let document ← documentOf (.ofDocument? p.document)
    return { p with
      restrictToBase := .bool p.restrictToBase.truthy
      allowedChains
      allowedAddresses
      blockedActions := actions.map .action
      allowSignMessages := .bool p.allowSignMessages.truthy
      isActive := .bool p.isActive.truthy
      document } := by
  generalize hv : p.wire chains addresses words = v
  have hid : v.required "id" = .ok p.id := hv ▸ rfl
  have hname : v.required "name" = .ok p.name := hv ▸ rfl
  have hparent : v.required "parentWalletAddress" = .ok p.parent := hv ▸ rfl
  have hchild : v.field "childWalletAddress" = .ok p.child := hv ▸ rfl
  have hlimit : v.field "usdLimit" = .ok p.usdLimit := hv ▸ rfl
  have hbase : flag v "restrictToBase" false = .ok (.bool p.restrictToBase.truthy) := hv ▸ rfl
  have hchains : v.field "allowedChains" = .ok (.array chains) := hv ▸ rfl
  have haddresses : v.field "allowedAddresses" = .ok ((addresses.map .array).getD .null) := hv ▸ rfl
  have hblocked : v.field "blockedActions" = .ok (.array (words.map .string)) := hv ▸ rfl
  have hsigning : flag v "allowSignMessages" false = .ok (.bool p.allowSignMessages.truthy) :=
    hv ▸ rfl
  have hactive : flag v "isActive" true = .ok (.bool p.isActive.truthy) := hv ▸ rfl
  have hdocument : v.field "compiledDocument" = .ok (.ofDocument? p.document) := hv ▸ rfl
  have hcreated : v.required "createdAt" = .ok p.createdAt := hv ▸ rfl
  have hupdated : v.required "updatedAt" = .ok p.updatedAt := hv ▸ rfl
  simp only [ofJson, hid, hname, hparent, hchild, hlimit, hbase, hchains, haddresses, hblocked,
    hsigning, hactive, hdocument, hcreated, hupdated, ok_bind, Json.partsIfAny_array]
  refine bind_congr fun allowedChains => ?_
  unfold addressesOf documentOf
  cases addresses <;> dsimp only [Option.map, Option.getD] <;> split <;> rfl

theorem ofJson_wire (hchains : Json.IsSet chains)
    (haddresses : ∀ vs, addresses = some vs → Json.IsSet vs)
    (hactions : actionsOf (words.map Json.string) = .ok actions)
    (hdocument : ∀ d, p.document = some d → d.WellFormed) :
    ofJson (p.wire chains addresses words) = .ok { p with
      restrictToBase := .bool p.restrictToBase.truthy
      allowedChains := chains
      allowedAddresses := addresses
      blockedActions := actions.map .action
      allowSignMessages := .bool p.allowSignMessages.truthy
      isActive := .bool p.isActive.truthy } := by
  rw [ofJson_wire_eq, hchains.members_eq, ok_bind, addressesOf_wire haddresses, ok_bind, hactions,
    ok_bind, documentOf_wire hdocument, ok_bind]
  rfl

theorem Storable.sorted_addresses (h : p.Storable) : ∃ addresses,
    p.allowedAddresses.mapM Json.sorted = .ok addresses ∧
      Option.Rel List.Perm p.allowedAddresses addresses := by
  cases hp : p.allowedAddresses with
  | none => exact ⟨none, rfl, .none⟩
  | some vs =>
    obtain ⟨_, ws, hws⟩ := h.addresses vs hp
    exact ⟨some ws, by simp [hws, Functor.map, Except.map], .some (Json.perm_of_sorted hws).symm⟩

theorem Storable.of_agrees (h : p.Storable) (ha : q.Agrees p)
    (hblocked : ∀ entry ∈ q.blockedActions, ∃ a, entry = .action a) : q.Storable where
  chains := h.chains.of_perm ha.allowedChains
  chainsSorted := by
    obtain ⟨vs, hvs⟩ := h.chainsSorted
    exact Json.sorted_of_perm ha.allowedChains hvs
  addresses vs hq := by
    have hrel := ha.allowedAddresses
    rw [hq] at hrel
    cases hp : p.allowedAddresses with
    | none => rw [hp] at hrel; cases hrel
    | some us =>
      rw [hp] at hrel
      obtain ⟨hset, ws, hws⟩ := h.addresses us hp
      cases hrel with
      | some hperm => exact ⟨hset.of_perm hperm, Json.sorted_of_perm hperm hws⟩
  blocked := hblocked
  document d hd := h.document d (ha.document ▸ hd)

/-- A record that can be stored is written, and what is read back says the same and can be stored
again. -/
theorem Storable.reread (h : p.Storable) : ∃ v q, p.toJson = .ok v ∧ v ≠ .null ∧ ofJson v = .ok q ∧
    q.Agrees p ∧ q.Storable := by
  obtain ⟨chains, hchains⟩ := h.chainsSorted
  obtain ⟨addresses, haddresses, hrel⟩ := h.sorted_addresses
  obtain ⟨actions, hentries⟩ := exists_actions h.blocked
  have hwords := blockedWords_actions actions
  rw [← hentries] at hwords
  have hsorted : (actions.map Action.word).Perm ((actions.map Action.word).mergeSort (· ≤ ·)) :=
    (List.mergeSort_perm _ _).symm
  obtain ⟨found, hfound, hmem⟩ := actionsOf_words hsorted
  have hperm := (Json.perm_of_sorted hchains).symm
  have hsets : ∀ vs, addresses = some vs → Json.IsSet vs := by
    rintro vs rfl
    cases hp : p.allowedAddresses with
    | none => rw [hp] at hrel; cases hrel
    | some us =>
      rw [hp] at hrel
      cases hrel with
      | some hus => exact (h.addresses us hp).1.of_perm hus
  have hagrees : Agrees { p with
      restrictToBase := .bool p.restrictToBase.truthy
      allowedChains := chains
      allowedAddresses := addresses
      blockedActions := found.map .action
      allowSignMessages := .bool p.allowSignMessages.truthy
      isActive := .bool p.isActive.truthy } p := by
    refine ⟨rfl, rfl, rfl, rfl, rfl, rfl, hperm, hrel, fun a => ?_, rfl, rfl, rfl, rfl, rfl⟩
    simp [hentries, hmem]
  exact ⟨_, _, toJson_of_sorted hchains haddresses hwords, nofun,
    ofJson_wire (h.chains.of_perm hperm) hsets hfound h.document, hagrees,
    h.of_agrees hagrees (by simp)⟩

theorem storable_of_toJson (h : p.toJson = .ok v) (hchains : Json.IsSet p.allowedChains)
    (haddresses : ∀ vs, p.allowedAddresses = some vs → Json.IsSet vs)
    (hdocument : ∀ d, p.document = some d → d.WellFormed) : p.Storable := by
  rw [toJson_eq] at h
  obtain ⟨chains, hsorted, h⟩ := bind_eq_ok.mp h
  obtain ⟨addresses, hmap, h⟩ := bind_eq_ok.mp h
  obtain ⟨words, hwords, _⟩ := bind_eq_ok.mp h
  refine ⟨hchains, ⟨chains, hsorted⟩, fun vs hvs => ⟨haddresses vs hvs, ?_⟩,
    actions_of_blockedWords hwords, hdocument⟩
  rw [hvs, Option.mapM_some] at hmap
  obtain ⟨ws, hws, _⟩ := map_eq_ok.mp hmap
  exact ⟨ws, hws⟩

theorem Agrees.options (h : q.Agrees p) (hchains : Json.IsSet p.allowedChains) :
    p.options.Reordered q.options where
  limit := h.usdLimit
  validFrom := rfl
  validTo := rfl
  base := h.restrictToBase
  signing := h.allowSignMessages
  chains := ⟨_, _, rfl, rfl, hchains, h.allowedChains⟩
  addresses := by
    have hrel := h.allowedAddresses
    unfold PolicyRecord.options
    cases hp : p.allowedAddresses <;> cases hq : q.allowedAddresses <;> rw [hp, hq] at hrel <;>
      cases hrel
    · exact Or.inl ⟨rfl, rfl⟩
    · rename_i hperm
      exact Or.inr ⟨_, _, rfl, rfl, hperm⟩
  blocked := ⟨_, _, rfl, rfl, h.blockedActions⟩

end PolicyRecord

theorem LinkRecord.ofJson_toJson (l : LinkRecord) : ofJson l.toJson = .ok l := rfl

theorem Publication.ofJson_toJson {p : Publication} (h : p.document.WellFormed) :
    ofJson p.toJson = .ok p :=
  bind_eq_ok.mpr ⟨p.parent, rfl, bind_eq_ok.mpr ⟨p.document.toJson, rfl,
    bind_eq_ok.mpr ⟨p.document, Document.ofJson_toJson h, rfl⟩⟩⟩

end Allowance
