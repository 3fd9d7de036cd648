import Allowance.Proofs.Registry.Reachable
import Allowance.Proofs.Settings.Canonical

/-! # Drafts compile as they stand

Before a registry compiles a draft, it makes its chains a set and its addresses a set of keys, and
blocks the mandatory actions. Compiling the options of the draft as they stand gives the same
document or is refused as well, as long as no allowed address is written with a capital X. The
registry makes that letter small before addresses are checked, so it lets such an address pass.
-/

namespace Allowance

open Checked

/-- Two checks end alike: with one value, with options refused, or with one other fault. -/
inductive Checked.Alike {α : Type} : Checked α → Checked α → Prop
  | ok (a : α) : Alike (.ok a) (.ok a)
  | refused (e e' : OptionsError) : Alike (.error (.options e)) (.error (.options e'))
  | error (e : Fault) : Alike (.error e) (.error e)

namespace Checked.Alike

variable {α β : Type} {x y : Checked α} {f g : α → Checked β}

theorem refl (x : Checked α) : Alike x x := by
  cases x with
  | ok a => exact .ok a
  | error e => exact .error e

theorem bind (h : Alike x y) (hf : ∀ a, Alike (f a) (g a)) : Alike (x >>= f) (y >>= g) := by
  cases h with
  | ok a => exact hf a
  | refused e e' => exact .refused e e'
  | error e => exact .error e

theorem eq_ok {a : α} (h : Alike (.ok a) y) : y = .ok a := by
  cases h
  rfl

theorem eq_error {e : Fault} (h : Alike (.error e) y) : ∃ e', y = .error e' ∧
    (e' = e ∨ ∃ o o', e = .options o ∧ e' = .options o') := by
  cases h with
  | refused o o' => exact ⟨_, rfl, Or.inr ⟨o, o', rfl, rfl⟩⟩
  | error e => exact ⟨e, rfl, Or.inl rfl⟩

end Checked.Alike

namespace Options

variable {ss : List String}

theorem mapM_checkAddress (h : ∀ s ∈ ss, Address.isAddress s = true) :
    (ss.map .string).mapM checkAddress = .ok (ss.map Address.key) :=
  mapM_map fun s hs => checkAddress_eq_ok.mpr ⟨s, rfl, h s hs, rfl⟩

theorem mapM_checkAddress_refused (h : ∃ s ∈ ss, Address.isAddress s = false) :
    ∃ e, (ss.map .string).mapM checkAddress = .error (.options e) := by
  induction ss with
  | nil => obtain ⟨_, hs, _⟩ := h; cases hs
  | cons s ss ih =>
    rw [List.map_cons, List.mapM_cons]
    by_cases hs : Address.isAddress s = true
    · obtain ⟨t, ht, hbad⟩ := h
      rcases List.mem_cons.mp ht with rfl | ht
      · simp [hs] at hbad
      · obtain ⟨e, he⟩ := ih ⟨t, ht, hbad⟩
        exact ⟨e, by simp [checkAddress, hs, he]⟩
    · exact ⟨_, by simp [checkAddress, hs, OptionsError.throw]; rfl⟩

end Options

namespace Draft

variable {d : Draft} {parent id createdAt partner default : Json} {p : PolicyRecord}

def options (d : Draft) : Options where
  usdLimit := d.usdLimit
  allowedAddresses := d.allowedAddresses
  restrictToBase := d.restrictToBase
  allowedChains := d.allowedChains
  blockedActions := d.blockedActions
  allowSignMessages := d.allowSignMessages

/-- Chains and addresses are collections of texts, and what is blocked are actions. -/
structure Typed (d : Draft) : Prop where
  chains : ∃ names : List String, d.allowedChains.partsIfAny = .ok (names.map .string)
  addresses : d.allowedAddresses = .null ∨
    ∃ addresses : List String, d.allowedAddresses.parts = .ok (addresses.map .string)
  blocked : ∃ actions : List Action, d.blockedActions.entries = .ok (actions.map .action)

/-- The addresses are not the empty text in place of a collection, and none has a capital X. -/
structure PlainAddresses (d : Draft) : Prop where
  collected : d.allowedAddresses ≠ .string ""
  small : ∀ parts s, d.allowedAddresses.parts = .ok parts → .string s ∈ parts →
    ¬ Address.HasCapitalX s

theorem toRecord_eq_ok : d.toRecord parent id createdAt = .ok p ↔ ∃ chains addresses blocked,
    PolicyRecord.chainSet d.allowedChains = .ok chains ∧
    PolicyRecord.addressSet d.allowedAddresses = .ok addresses ∧
    PolicyRecord.blockedSet d.blockedActions = .ok blocked ∧
    p = {
      id, parent, createdAt
      name := d.name
      child := .null
      usdLimit := d.usdLimit
      restrictToBase := d.restrictToBase
      allowedChains := chains
      allowedAddresses := addresses
      blockedActions := blocked
      allowSignMessages := d.allowSignMessages
      isActive := d.isActive
      document := none
      updatedAt := createdAt } := by
  simp only [toRecord, bind_eq_ok, pure_eq_ok, eq_comm (b := p)]
  constructor
  · rintro ⟨chains, hchains, addresses, haddresses, blocked, hblocked, h⟩
    exact ⟨chains, addresses, blocked, hchains, haddresses, hblocked, h⟩
  · rintro ⟨chains, addresses, blocked, hchains, haddresses, hblocked, h⟩
    exact ⟨chains, hchains, addresses, haddresses, blocked, hblocked, h⟩

theorem chains_of_chainSet {o o' : Options} {v : Json} {cs : List Json}
    (h : PolicyRecord.chainSet v = .ok cs) (ho : o.allowedChains = v)
    (ho' : o'.allowedChains = .array cs) (hbase : o'.restrictToBase = o.restrictToBase) :
    o'.chains default = o.chains default := by
  have hset := PolicyRecord.isSet_of_chainSet h
  obtain ⟨parts, hparts, hmembers⟩ := bind_eq_ok.mp h
  simp only [Options.chains, hbase, ho, ho', hparts, hmembers, Json.partsIfAny_array,
    hset.members_eq, ok_bind]

/-- Blocking the mandatory actions as well makes no difference to what is compiled. -/
theorem entries_of_blockedSet {b : BlockedActions} {entries : List BlockedEntry}
    (h : PolicyRecord.blockedSet b = .ok entries) : ∃ given, b.entries = .ok given ∧
      Options.extraBlocks entries = Options.extraBlocks given := by
  obtain ⟨given, hgiven, hmem⟩ := PolicyRecord.mem_blockedSet h
  refine ⟨given, hgiven, List.filter_congr fun a _ => ?_⟩
  rw [Bool.eq_iff_iff]
  simp only [Bool.and_eq_true, BlockedEntry.holds_iff, hmem, Bool.not_eq_true',
    ← Bool.not_eq_true, List.contains_iff_mem]
  exact and_congr_left fun ha => or_iff_left ha

theorem texts_of_addressKeys {parts : List Json} {keys : List String}
    (h : parts.mapM Json.addressKey = .ok keys) :
    ∃ ss : List String, parts = ss.map .string ∧ keys = ss.map Address.key := by
  induction parts generalizing keys with
  | nil => exact ⟨[], rfl, mapM_nil_eq_ok.mp h⟩
  | cons v parts ih =>
    obtain ⟨key, rest, hkey, hrest, rfl⟩ := mapM_cons_eq_ok.mp h
    obtain ⟨ss, rfl, rfl⟩ := ih hrest
    cases v with
    | string s => exact ⟨s :: ss, rfl, by rw [← Except.ok.inj hkey]; rfl⟩
    | _ => exact absurd hkey misuse_ne_ok

theorem exists_keys (ss : List String) : ∃ ks : List String,
    Json.distinct ((ss.map Address.key).map .string) = ks.map .string ∧
      ∀ k, k ∈ ks ↔ ∃ s ∈ ss, Address.key s = k := by
  have htexts : ∀ v ∈ Json.distinct ((ss.map Address.key).map .string), ∃ s, v = .string s := by
    intro v hv
    obtain ⟨s, _, rfl⟩ := List.mem_map.mp (Json.mem_of_mem_distinct hv)
    exact ⟨s, rfl⟩
  refine ⟨_, (Json.map_string_texts htexts).symm, fun k => ?_⟩
  have hdistinct := Json.mem_distinct (u := .string k) (by simp [Json.isScalar]) htexts
  rw [← Json.map_string_texts htexts] at hdistinct
  simpa using hdistinct

theorem isAddress_singleton (c : Char) : Address.isAddress (String.singleton c) = false := by
  refine Bool.eq_false_iff.mpr fun h => ?_
  obtain ⟨ds, hs, _⟩ := Address.isAddress_iff.mp h
  simp at hs

theorem text?_eq_none_of_addresses {v : Json} {ss : List String}
    (hparts : v.parts = .ok (ss.map .string)) (hcollected : v ≠ .string "")
    (hall : ∀ s ∈ ss, Address.isAddress s = true) : v.text? = none := by
  cases v with
  | string s =>
    cases hs : s.toList with
    | nil => exact absurd (congrArg Json.string (String.toList_injective hs)) hcollected
    | cons c cs =>
      have hchars := Except.ok.inj hparts
      rw [hs] at hchars
      have hc : String.singleton c ∈ ss := by
        have hpart : Json.string (String.singleton c) ∈ ss.map .string := by simp [← hchars]
        simpa using hpart
      have haddress := hall _ hc
      rw [isAddress_singleton] at haddress
      cases haddress
  | _ => rfl

/-- Addresses are checked alike before and after they are brought into the form of a record. -/
theorem checkAddresses_alike {v : Json} {addresses : Option (List Json)}
    (h : PolicyRecord.addressSet v = .ok addresses) (hcollected : v ≠ .string "")
    (hsmall : ∀ parts s, v.parts = .ok parts → .string s ∈ parts → ¬ Address.HasCapitalX s) :
    (Options.checkAddresses v).Alike
      (Options.checkAddresses ((addresses.map .array).getD .null)) := by
  unfold PolicyRecord.addressSet at h
  split at h
  · obtain rfl := pure_eq_ok.mp h
    exact .refl _
  obtain ⟨parts, hparts, h⟩ := bind_eq_ok.mp h
  obtain ⟨keys, hkeys, h⟩ := bind_eq_ok.mp h
  obtain rfl := pure_eq_ok.mp h
  obtain ⟨ss, rfl, rfl⟩ := texts_of_addressKeys hkeys
  obtain ⟨ks, hks, hmem⟩ := exists_keys ss
  have hafter := Options.checkAddresses_of_parts (v := .array (ks.map .string)) rfl rfl
  rw [hks, Option.map_some, Option.getD_some, hafter]
  by_cases hall : ∀ s ∈ ss, Address.isAddress s = true
  · have htext := text?_eq_none_of_addresses hparts hcollected hall
    have hkeys : ∀ k ∈ ks, Address.isAddress k = true := by
      intro k hk
      obtain ⟨s, hs, rfl⟩ := (hmem k).mp hk
      exact Address.isAddress_key (hall s hs)
    have hsame : Options.sortedTexts (ks.map Address.key) =
        Options.sortedTexts (ss.map Address.key) := by
      refine Options.sortedTexts_congr fun key => ?_
      simp only [List.mem_map, hmem]
      constructor
      · rintro ⟨_, ⟨s, hs, rfl⟩, rfl⟩
        exact ⟨s, hs, (Address.key_key (hall s hs)).symm⟩
      · rintro ⟨s, hs, rfl⟩
        exact ⟨_, ⟨s, hs, rfl⟩, Address.key_key (hall s hs)⟩
    rw [Options.checkAddresses_of_parts hparts htext, Options.mapM_checkAddress hall,
      Options.mapM_checkAddress hkeys, ok_bind, ok_bind, hsame]
    exact .refl _
  · obtain ⟨s, hs, hbad⟩ : ∃ s ∈ ss, Address.isAddress s = false := by simpa using hall
    have hkey : Address.isAddress (Address.key s) = false := by
      refine Bool.eq_false_iff.mpr fun hkey => ?_
      rcases Address.isAddress_key_iff.mp hkey with haddress | hcapital
      · exact absurd haddress (by simp [hbad])
      · exact hsmall _ s hparts (List.mem_map_of_mem hs) hcapital
    obtain ⟨e, he⟩ := Options.mapM_checkAddress_refused ⟨s, hs, hbad⟩
    obtain ⟨e', he'⟩ := Options.mapM_checkAddress_refused ⟨_, (hmem _).mpr ⟨s, hs, rfl⟩, hkey⟩
    rw [he', error_bind]
    cases htext : v.text? with
    | none =>
      rw [Options.checkAddresses_of_parts hparts htext, he, error_bind]
      exact .refused _ _
    | some t =>
      cases v <;> cases htext
      exact .refused _ _

theorem compile_alike (h : d.toRecord parent id createdAt = .ok p) (hd : d.PlainAddresses) :
    (d.options.compile partner default).Alike (p.options.compile partner default) := by
  obtain ⟨chains, addresses, blocked, hchains, haddresses, hblocked, hp⟩ := toRecord_eq_ok.mp h
  obtain ⟨given, hgiven, hextra⟩ := entries_of_blockedSet hblocked
  have hlimit : p.options.usdLimit = d.options.usdLimit := by rw [hp]; rfl
  have hsigning : p.options.allowSignMessages = d.options.allowSignMessages := by rw [hp]; rfl
  have hset : p.options.allowedChains = .array chains := by rw [hp]; rfl
  have hbase : p.options.restrictToBase = d.options.restrictToBase := by rw [hp]; rfl
  have hkeys : p.options.allowedAddresses = (addresses.map .array).getD .null := by
    rw [hp]
    cases addresses <;> rfl
  have hgiven' : d.options.blockedActions.entries = .ok given := hgiven
  have hentries : p.options.blockedActions.entries = .ok blocked := by rw [hp]; rfl
  refine .bind ?_ fun s => .refl _
  unfold Options.check
  rw [hlimit, hsigning, hkeys, chains_of_chainSet hchains rfl hset hbase, hgiven', hentries]
  refine .bind (.refl _) fun limit => .bind ?_ fun found => .bind (.refl _) fun window =>
    .bind (.refl _) fun cs => ?_
  · exact checkAddresses_alike haddresses hd.collected hd.small
  · simp only [ok_bind, hextra]
    exact .refl _

theorem addressSet_of_texts {v : Json} {ss : List String} (h : v.parts = .ok (ss.map .string)) :
    PolicyRecord.addressSet v =
      .ok (some (Json.distinct ((ss.map Address.key).map .string))) := by
  have hkeys : (ss.map Json.string).mapM Json.addressKey = .ok (ss.map Address.key) :=
    mapM_map fun _ _ => rfl
  unfold PolicyRecord.addressSet
  split
  · exact absurd h misuse_ne_ok
  · simp only [h, ok_bind, hkeys]
    rfl

theorem Typed.toRecord (hd : d.Typed) : ∃ p, d.toRecord parent id createdAt = .ok p ∧
    ∀ key document, ∃ v, PolicyRecord.toJson { p with id := key, document } = .ok v := by
  obtain ⟨names, hnames⟩ := hd.chains
  obtain ⟨actions, hactions⟩ := hd.blocked
  have hscalars : ∀ ss : List String, (ss.map Json.string).all Json.isScalar = true := by
    simp [Json.isScalar]
  have htexts : ∀ ss : List String, ∀ v ∈ Json.distinct (ss.map .string), ∃ s, v = .string s := by
    intro ss v hv
    obtain ⟨s, _, rfl⟩ := List.mem_map.mp (Json.mem_of_mem_distinct hv)
    exact ⟨s, rfl⟩
  have hchains : PolicyRecord.chainSet d.allowedChains =
      .ok (Json.distinct (names.map .string)) := by
    simp only [PolicyRecord.chainSet, hnames, ok_bind, Json.members, if_pos (hscalars names)]
  obtain ⟨addresses, haddresses, hsorted⟩ : ∃ addresses,
      PolicyRecord.addressSet d.allowedAddresses = .ok addresses ∧
        ∃ sorted, addresses.mapM Json.sorted = .ok sorted := by
    rcases hd.addresses with hnull | ⟨ss, hss⟩
    · exact ⟨none, by rw [hnull]; rfl, none, rfl⟩
    · obtain ⟨ms, hms⟩ := Json.sorted_of_texts (htexts (ss.map Address.key))
      exact ⟨_, addressSet_of_texts hss, some ms, by simp only [Option.mapM_some, hms]; rfl⟩
  have hblocked : PolicyRecord.blockedSet d.blockedActions = .ok
      ((actions ++ Action.mandatory.filter fun a =>
        !BlockedEntry.holds (actions.map .action) a).map .action) := by
    simp [PolicyRecord.blockedSet, hactions, pure, Except.pure]
  refine ⟨_, toRecord_eq_ok.mpr ⟨_, _, _, hchains, haddresses, hblocked, rfl⟩,
    fun key document => ?_⟩
  obtain ⟨chains, hchains⟩ := Json.sorted_of_texts (htexts names)
  obtain ⟨sorted, hsorted⟩ := hsorted
  exact ⟨_, PolicyRecord.toJson_of_sorted hchains hsorted (PolicyRecord.blockedWords_actions _)⟩

end Draft

namespace Registry

variable {r : Registry} {w : World} {t : Tables} {parent : Json} {d : Draft}

theorem create_of_error {p : PolicyRecord} {e : Fault}
    (hparent : Address.isAddressValue parent = true)
    (hp : d.toRecord parent .null (.number (w.sources.time w.times)) = .ok p)
    (he : r.compile p = .error e) : ∃ w', (r.create parent d).perform w = (.error e, w') := by
  have hcompile : r.compile { p with id := .string (w.sources.id w.ids) } = .error e := he
  refine ⟨{ w with times := w.times + 1, ids := w.ids + 1 }, ?_⟩
  simp [Registry.create, Step.perform_bind, hparent, hp, hcompile]

theorem Holds.create_of_compile {p : PolicyRecord} {v : Json} {document : Document}
    (h : r.Holds w t) (hparent : Address.isAddressValue parent = true)
    (hp : d.toRecord parent .null (.number (w.sources.time w.times)) = .ok p)
    (hdocument : r.compile p = .ok document)
    (hv : PolicyRecord.toJson { p with
      id := .string (w.sources.id w.ids), document := some document } = .ok v) :
    ∃ p q w', (r.create parent d).perform w = (.ok p, w') ∧ p.document = some document ∧
      (r.get p.id).perform w' = (.ok q, w') ∧ q.document = some document := by
  have hcreate := h.create_saved rfl rfl hparent hp hdocument hv
  obtain ⟨_, w', hperform⟩ := hcreate.succeeds
  rw [Step.Leads, hperform] at hcreate
  obtain ⟨rfl, ⟨q, hagrees, hq, hholds⟩, _⟩ := hcreate
  have hstored : (t.store (w.sources.id w.ids) q).policy (w.sources.id w.ids) = some q :=
    Function.update_self ..
  refine ⟨_, q, w', hperform, rfl, ?_, hagrees.document⟩
  rw [hholds.get, hstored]

/-- A registry creates a policy from a draft if the options of the draft compile, and the policy is
stored with the document that they compile to. Otherwise the draft fails as its options do, and
where they are refused it is refused. -/
theorem Holds.create_compiles (h : r.Holds w t) (hparent : Address.isAddressValue parent = true)
    (hd : d.Typed) (hplain : d.PlainAddresses) :
    (∀ document, d.options.compile r.partner r.defaultChains = .ok document →
      ∃ p q w', (r.create parent d).perform w = (.ok p, w') ∧ p.document = some document ∧
        (r.get p.id).perform w' = (.ok q, w') ∧ q.document = some document) ∧
    ∀ e, d.options.compile r.partner r.defaultChains = .error e →
      ∃ e' w', (r.create parent d).perform w = (.error e', w') ∧
        (e' = e ∨ ∃ o o', e = .options o ∧ e' = .options o') := by
  obtain ⟨p, hp, hwritten⟩ :=
    @Draft.Typed.toRecord d parent .null (.number (w.sources.time w.times)) hd
  have halike : (d.options.compile r.partner r.defaultChains).Alike (r.compile p) :=
    Draft.compile_alike hp hplain
  constructor
  · intro document hdocument
    rw [hdocument] at halike
    obtain ⟨v, hv⟩ := hwritten (.string (w.sources.id w.ids)) (some document)
    exact h.create_of_compile hparent hp halike.eq_ok hv
  · intro e he
    rw [he] at halike
    obtain ⟨e', he', hsame⟩ := halike.eq_error
    obtain ⟨w', hfailed⟩ := create_of_error hparent hp he'
    exact ⟨e', w', hfailed, hsame⟩

section Household

def weeklyTo (address : String) : Draft :=
  { weekly with allowedAddresses := .ofTexts [address] }

def weeklyToDaughter : Document :=
  Settings.document ⟨["8453"], some 15, [daughter], [], false, none, none⟩ (.string defaultPartner)

theorem weeklyTo_toRecord (address : String) :
    (weeklyTo address).toRecord (.string mother) .null (.number 1000) =
      .ok { weeklyRecord with allowedAddresses := some [.string (Address.key address)] } := rfl

theorem weeklyTo_created {address : String} (h : Address.key address = daughter) : ∃ p q w',
    (household.create (.string mother) (weeklyTo address)).perform morning = (.ok p, w') ∧
      p.document = some weeklyToDaughter ∧ (household.get p.id).perform w' = (.ok q, w') ∧
      q.document = some weeklyToDaughter := by
  have hmother : Address.isAddressValue (.string mother) = true := by decide
  have hcompile : household.compile { weeklyRecord with
      allowedAddresses := some [.string (Address.key address)] } = .ok weeklyToDaughter := by
    rw [h]
    refine Options.compile_eq_ok.mpr ⟨_, Options.check_eq_ok.mpr
      ⟨gives_iff.mp ?_, gives_iff.mp ?_, gives_iff.mp ?_, gives_iff.mp ?_, ⟨_, rfl, ?_⟩, rfl⟩, rfl⟩
    all_goals decide +kernel
  have hsorted : ∀ s, Json.sorted [.string s] = .ok [.string s] := fun s =>
    Json.sorted_eq_ok.mpr ⟨rfl, List.mergeSort_singleton _⟩
  have hv := PolicyRecord.toJson_of_sorted (p := { weeklyRecord with
      id := .string "weekly"
      allowedAddresses := some [.string (Address.key address)]
      document := some weeklyToDaughter }) (hsorted "8453")
    (by simp only [Option.mapM_some, hsorted]; rfl)
    (PolicyRecord.blockedWords_actions Action.mandatory)
  exact household_blank.holds.create_of_compile hmother (weeklyTo_toRecord address) hcompile hv

def daughterLoud : String := "0xDE709F2102306220921060314715629080E2FB77"

theorem create_compiles_weekly :
    (weeklyTo daughterLoud).options.compile household.partner household.defaultChains =
        .ok weeklyToDaughter ∧
      ∃ p q w', (household.create (.string mother) (weeklyTo daughterLoud)).perform morning =
          (.ok p, w') ∧ p.document = some weeklyToDaughter ∧
        (household.get p.id).perform w' = (.ok q, w') ∧ q.document = some weeklyToDaughter := by
  have hcompile : (weeklyTo daughterLoud).options.compile household.partner
      household.defaultChains = .ok weeklyToDaughter := by
    refine Options.compile_eq_ok.mpr ⟨_, Options.check_eq_ok.mpr
      ⟨gives_iff.mp ?_, gives_iff.mp ?_, gives_iff.mp ?_, gives_iff.mp ?_, ⟨_, rfl, ?_⟩, rfl⟩, rfl⟩
    all_goals decide +kernel
  have htyped : (weeklyTo daughterLoud).Typed :=
    ⟨⟨["8453"], rfl⟩, Or.inr ⟨[daughterLoud], rfl⟩, ⟨Action.mandatory, rfl⟩⟩
  have hplain : (weeklyTo daughterLoud).PlainAddresses := by
    refine ⟨nofun, fun parts s hparts hs => ?_⟩
    obtain rfl := Except.ok.inj hparts
    obtain rfl : s = daughterLoud := by simpa using hs
    rintro ⟨ds, hds, _⟩
    have hsmall : daughterLoud.toList[1]? = some 'x' := by decide +kernel
    simp [hds] at hsmall
  have hmother : Address.isAddressValue (.string mother) = true := by decide
  exact ⟨hcompile, (household_blank.holds.create_compiles hmother htyped hplain).1 _ hcompile⟩

def daughterShouted : String := "0XDE709F2102306220921060314715629080E2FB77"

/-- The registry takes an address with a capital X, which the compiler refuses. -/
theorem create_shouted :
    (weeklyTo daughterShouted).options.compile household.partner household.defaultChains =
        .error (.options (.badAddress (.string daughterShouted))) ∧
      ∃ p q w', (household.create (.string mother) (weeklyTo daughterShouted)).perform morning =
          (.ok p, w') ∧ p.document = some weeklyToDaughter ∧
        (household.get p.id).perform w' = (.ok q, w') ∧ q.document = some weeklyToDaughter := by
  have hlimit : Options.checkLimit (.int 15) = .ok (some 15) := gives_iff.mp (by decide +kernel)
  have haddress : Address.isAddress daughterShouted = false := by decide +kernel
  have haddresses : Options.checkAddresses (.ofTexts [daughterShouted]) =
      .error (.options (.badAddress (.string daughterShouted))) := by
    simp [Options.checkAddresses, Json.ofTexts, Json.parts, Options.checkAddress, haddress,
      OptionsError.throw]
  refine ⟨?_, weeklyTo_created (by decide +kernel)⟩
  simp only [Options.compile, Options.check, Draft.options, weeklyTo, weekly, hlimit, haddresses,
    ok_bind, error_bind]

end Household

end Registry

end Allowance
