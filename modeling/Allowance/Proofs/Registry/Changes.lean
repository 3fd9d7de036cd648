import Allowance.Proofs.Registry.Record
import Allowance.Proofs.Settings.Compile
import Allowance.Registry.Basic

/-! # Drafts, changes and the documents of records

Drafts and changes bring the sets of a record into their form. A record is compiled by a registry
when its document is the one that its present fields give, up to the order of chains. Changes that
leave out every field that the document depends on leave the record compiled.
-/

namespace Allowance

open Checked

namespace PolicyRecord

variable {p q : PolicyRecord} {v : Json} {vs : List Json} {r : Registry}

theorem isSet_of_chainSet (h : chainSet v = .ok vs) : Json.IsSet vs := by
  obtain ⟨_, _, h⟩ := bind_eq_ok.mp h
  exact Json.isSet_of_members h

theorem isSet_of_addressSet {addresses : Option (List Json)} (h : addressSet v = .ok addresses) :
    ∀ vs, addresses = some vs → Json.IsSet vs := by
  unfold addressSet at h
  split at h
  · simp [← pure_eq_ok.mp h]
  · obtain ⟨parts, _, h⟩ := bind_eq_ok.mp h
    obtain ⟨keys, _, h⟩ := bind_eq_ok.mp h
    obtain rfl := pure_eq_ok.mp h
    rintro vs ⟨⟩
    refine Json.isSet_distinct fun v hv => ?_
    obtain ⟨key, _, rfl⟩ := List.mem_map.mp hv
    rfl

theorem mem_blockedSet {b : BlockedActions} {entries : List BlockedEntry}
    (h : blockedSet b = .ok entries) : ∃ given, b.entries = .ok given ∧
      ∀ a, .action a ∈ entries ↔ .action a ∈ given ∨ a ∈ Action.mandatory := by
  obtain ⟨given, hgiven, h⟩ := bind_eq_ok.mp h
  obtain rfl := pure_eq_ok.mp h
  refine ⟨given, hgiven, fun a => ?_⟩
  by_cases ha : BlockedEntry.action a ∈ given
  · simp [ha]
  · simp [ha, ← Bool.not_eq_true, BlockedEntry.holds_iff]

structure HasSets (p : PolicyRecord) : Prop where
  chains : Json.IsSet p.allowedChains
  addresses : ∀ vs, p.allowedAddresses = some vs → Json.IsSet vs

theorem Storable.hasSets (h : p.Storable) : p.HasSets :=
  ⟨h.chains, fun vs hvs => (h.addresses vs hvs).1⟩

/-- The document of a record is the one that its fields give, with its chains in some order. -/
def CompiledBy (r : Registry) (p : PolicyRecord) : Prop :=
  ∃ s cs, p.options.check r.defaultChains = .ok s ∧ cs.Perm s.chains ∧
    p.document = some (Settings.document { s with chains := cs } r.partner)

theorem CompiledBy.of_agrees (h : p.CompiledBy r) (ha : q.Agrees p) (hs : p.HasSets) :
    q.CompiledBy r := by
  obtain ⟨s, cs, hcheck, hperm, hdocument⟩ := h
  obtain ⟨cs', hperm', hcheck'⟩ := (ha.options hs.chains).check hcheck
  exact ⟨_, cs, hcheck', hperm.trans hperm'.symm, ha.document.trans hdocument⟩

theorem CompiledBy.congr (h : p.CompiledBy r) (hoptions : q.options = p.options)
    (hdocument : q.document = p.document) : q.CompiledBy r := by
  unfold CompiledBy
  rw [hoptions, hdocument]
  exact h

theorem CompiledBy.document_wellFormed (h : p.CompiledBy r) :
    ∀ d, p.document = some d → d.WellFormed := by
  obtain ⟨s, cs, hcheck, hperm, hdocument⟩ := h
  intro d hd
  obtain rfl := Option.some.inj (hdocument.symm.trans hd)
  exact ((Options.wellFormed_of_check hcheck).of_perm hperm).document r.partner

theorem compiledBy_of_compile {d : Document} (h : r.compile p = .ok d) :
    CompiledBy r { p with document := some d } := by
  obtain ⟨s, hcheck, rfl⟩ := Options.compile_eq_ok.mp h
  exact ⟨s, s.chains, hcheck, .refl _, rfl⟩

end PolicyRecord

theorem Draft.toRecord_spec {d : Draft} {parent id createdAt : Json} {p : PolicyRecord}
    (h : d.toRecord parent id createdAt = .ok p) :
    p.HasSets ∧ p.child = .null ∧ p.parent = parent ∧ p.isActive = d.isActive := by
  obtain ⟨chains, hchains, h⟩ := bind_eq_ok.mp h
  obtain ⟨addresses, haddresses, h⟩ := bind_eq_ok.mp h
  obtain ⟨blocked, _, h⟩ := bind_eq_ok.mp h
  obtain rfl := pure_eq_ok.mp h
  exact ⟨⟨PolicyRecord.isSet_of_chainSet hchains, PolicyRecord.isSet_of_addressSet haddresses⟩,
    rfl, rfl, rfl⟩

namespace Changes

variable {c : Changes} {p q : PolicyRecord}

def changed {α β : Type} (new : Option α) (form : α → Checked β) (old : β) : Checked β :=
  match new with
  | some v => form v
  | none => .ok old

/-- Changes bring the new sets into their form and put all new values in their places. -/
theorem apply_eq (c : Changes) (p : PolicyRecord) : c.apply p = do
    let allowedChains ← changed c.allowedChains PolicyRecord.chainSet p.allowedChains
    let allowedAddresses ← changed c.allowedAddresses PolicyRecord.addressSet p.allowedAddresses
    let blockedActions ← changed c.blockedActions PolicyRecord.blockedSet p.blockedActions
    return { p with
      allowedChains, allowedAddresses, blockedActions
      name := c.name.getD p.name
      usdLimit := c.usdLimit.getD p.usdLimit
      restrictToBase := c.restrictToBase.getD p.restrictToBase
      allowSignMessages := c.allowSignMessages.getD p.allowSignMessages
      isActive := c.isActive.getD p.isActive } := by
  unfold apply changed
  cases c.allowedChains <;> cases c.allowedAddresses <;> cases c.blockedActions <;> rfl

theorem apply_eq_ok : c.apply p = .ok q ↔ ∃ chains addresses blocked,
    changed c.allowedChains PolicyRecord.chainSet p.allowedChains = .ok chains ∧
    changed c.allowedAddresses PolicyRecord.addressSet p.allowedAddresses = .ok addresses ∧
    changed c.blockedActions PolicyRecord.blockedSet p.blockedActions = .ok blocked ∧
    { p with
      allowedChains := chains
      allowedAddresses := addresses
      blockedActions := blocked
      name := c.name.getD p.name
      usdLimit := c.usdLimit.getD p.usdLimit
      restrictToBase := c.restrictToBase.getD p.restrictToBase
      allowSignMessages := c.allowSignMessages.getD p.allowSignMessages
      isActive := c.isActive.getD p.isActive } = q := by
  rw [apply_eq]
  simp only [bind_eq_ok, pure_eq_ok]
  constructor
  · rintro ⟨chains, hchains, addresses, haddresses, blocked, hblocked, hq⟩
    exact ⟨chains, addresses, blocked, hchains, haddresses, hblocked, hq⟩
  · rintro ⟨chains, addresses, blocked, hchains, haddresses, hblocked, hq⟩
    exact ⟨chains, hchains, addresses, haddresses, blocked, hblocked, hq⟩

structure Keeps (p q : PolicyRecord) : Prop where
  id : q.id = p.id
  parent : q.parent = p.parent
  child : q.child = p.child
  createdAt : q.createdAt = p.createdAt
  document : q.document = p.document

theorem keeps_of_apply (h : c.apply p = .ok q) : Keeps p q := by
  obtain ⟨_, _, _, _, _, _, rfl⟩ := apply_eq_ok.mp h
  exact ⟨rfl, rfl, rfl, rfl, rfl⟩

theorem hasSets_of_apply (h : c.apply p = .ok q) (hp : p.HasSets) : q.HasSets := by
  obtain ⟨chains, addresses, _, hchains, haddresses, _, rfl⟩ := apply_eq_ok.mp h
  constructor
  · cases hc : c.allowedChains <;> rw [hc] at hchains
    · obtain rfl : p.allowedChains = chains := by simpa [changed] using hchains
      exact hp.chains
    · exact PolicyRecord.isSet_of_chainSet hchains
  · cases hc : c.allowedAddresses <;> rw [hc] at haddresses
    · obtain rfl : p.allowedAddresses = addresses := by simpa [changed] using haddresses
      exact hp.addresses
    · exact PolicyRecord.isSet_of_addressSet haddresses

theorem options_of_apply (h : c.apply p = .ok q) (hc : c.compiledFields.isEmpty = true) :
    q.options = p.options := by
  obtain ⟨chains, addresses, blocked, hchains, haddresses, hblocked, rfl⟩ := apply_eq_ok.mp h
  obtain ⟨hlimit, hbase, hc, ha, hb, hs⟩ : c.usdLimit = none ∧ c.restrictToBase = none ∧
      c.allowedChains = none ∧ c.allowedAddresses = none ∧ c.blockedActions = none ∧
      c.allowSignMessages = none := by
    simpa [compiledFields, List.isEmpty_iff] using hc
  rw [hc] at hchains
  rw [ha] at haddresses
  rw [hb] at hblocked
  obtain rfl : p.allowedChains = chains := by simpa [changed] using hchains
  obtain rfl : p.allowedAddresses = addresses := by simpa [changed] using haddresses
  obtain rfl : p.blockedActions = blocked := by simpa [changed] using hblocked
  simp [PolicyRecord.options, hlimit, hbase, hs]

end Changes

end Allowance
