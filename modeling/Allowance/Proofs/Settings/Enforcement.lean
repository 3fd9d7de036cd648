import Allowance.Proofs.Address
import Allowance.Proofs.Evaluation
import Allowance.Proofs.Number.Order
import Allowance.Proofs.Settings.Chains

/-! # Compiled documents enforce the options

What options permit is said without documents: inside their window and on their chains they let a
child transfer below the limit to the listed addresses, and sign messages where that is asked for,
unless the action is blocked. The compiled document allows exactly these requests.
-/

namespace Allowance

open Checked

namespace Options

def InWindow (o : Options) (now : Option Number) : Prop :=
  ∀ t, now = some t →
    (∀ start, o.validFrom = .number start → t.lt start = false) ∧
      ∀ stop, o.validTo = .number stop → stop.lt t = false

def OnChain (o : Options) (defaultChains : Json) (chain : String) : Prop :=
  ∃ chains, o.chains defaultChains = .ok chains ∧ chain ∈ chains

def Blocks (o : Options) (a : Action) : Prop :=
  ∃ entries, o.blockedActions.entries = .ok entries ∧ .action a ∈ entries

/-- No limit is set, or no value given, or the value is below the limit. -/
def BelowLimit (o : Options) (value : Option Number) : Prop :=
  ∀ limit, o.usdLimit = .number limit → ∀ usd, value = some usd → usd.lt limit = true

/-- No address is listed, or no recipient given, or the recipient is listed in some letter case. -/
def ToListed (o : Options) (recipient : Option String) : Prop :=
  ∀ listed, o.allowedAddresses.parts = .ok listed → listed ≠ [] →
    ∀ address, recipient = some address →
      ∃ a, .string a ∈ listed ∧ Address.key a = Address.key address

/-- What the options let a child do. -/
def Permits (o : Options) (defaultChains : Json) (r : Request) (now : Option Number) : Prop :=
  o.InWindow now ∧ o.OnChain defaultChains r.chain ∧
    (r.action = .transfer ∧ ¬ o.Blocks .transfer ∧ o.BelowLimit r.valueUsd ∧
        o.ToListed r.recipient ∨
      r.action = .signMessage ∧ o.allowSignMessages.truthy = true ∧ ¬ o.Blocks .signMessage)

theorem Permits.not_contract {o : Options} {defaultChains : Json} {r : Request}
    {now : Option Number} (h : o.Permits defaultChains r now) :
    ¬ (r.action = .deployContract ∨ r.action = .smartContract) := by
  obtain ⟨_, _, ⟨ht, _⟩ | ⟨hm, _⟩⟩ := h
  · simp [ht]
  · simp [hm]

end Options

namespace BlockedEntry

variable {entries : List BlockedEntry} {a : Action}

theorem holds_iff : holds entries a = true ↔ .action a ∈ entries := by
  simp only [holds, List.any_eq_true, beq_iff_eq]
  constructor
  · rintro ⟨entry, hmem, ha⟩
    cases entry with
    | action b =>
      obtain rfl : b = a := by simpa [action?] using ha
      exact hmem
    | foreign v => simp [action?] at ha
  · intro hmem
    exact ⟨_, hmem, rfl⟩

theorem mem_extraBlocks : a ∈ Options.extraBlocks entries ↔
    .action a ∈ entries ∧ a ≠ .deployContract ∧ a ≠ .smartContract := by
  cases a <;> simp [Options.extraBlocks, Action.all, Action.mandatory, holds_iff]

end BlockedEntry

namespace Settings

variable {s : Settings} {partner : Json} {r : Request} {p : Permission}

theorem mem_transferScope : p ∈ s.transferScope.permissions ↔ p.chain ∈ s.chains ∧
    p.effect = .allow ∧ p.action = .transfer ∧ p.conditions = s.transferConditions := by
  simp only [transferScope, List.mem_map]
  constructor
  · rintro ⟨chain, hc, rfl⟩
    exact ⟨hc, rfl, rfl, rfl⟩
  · rintro ⟨hc, he, ha, hcs⟩
    refine ⟨p.chain, hc, ?_⟩
    cases p
    simp_all

theorem mem_scopeOf {entry : ScopeEntry} {effect : Effect} {actions : List Action} :
    p ∈ (s.scopeOf entry effect actions).permissions ↔ p.chain ∈ s.chains ∧
      p.effect = effect ∧ p.action ∈ actions ∧ p.conditions = [] := by
  simp only [scopeOf, List.mem_flatMap, List.mem_map]
  constructor
  · rintro ⟨action, ha, chain, hc, rfl⟩
    exact ⟨hc, rfl, ha, rfl⟩
  · rintro ⟨hc, he, ha, hcs⟩
    refine ⟨p.action, ha, p.chain, hc, ?_⟩
    cases p
    simp_all

theorem mem_permissions : p ∈ (s.document partner).permissions ↔ p.chain ∈ s.chains ∧
    (p.effect = .allow ∧ p.action = .transfer ∧ p.conditions = s.transferConditions ∨
      p.effect = .deny ∧ (p.action = .deployContract ∨ p.action = .smartContract ∨
        p.action ∈ s.blocked) ∧ p.conditions = [] ∨
      p.effect = .allow ∧ p.action = .signMessage ∧ s.signing = true ∧ p.conditions = []) := by
  have hblocked : p ∈ (if s.blocked.isEmpty then []
      else [s.scopeOf .blocked .deny s.blocked]).flatMap (·.permissions) ↔
        p.chain ∈ s.chains ∧ p.effect = .deny ∧ p.action ∈ s.blocked ∧ p.conditions = [] := by
    cases hb : s.blocked <;> simp [mem_scopeOf]
  have hsigning : p ∈ (if s.signing then [s.scopeOf .signMessages .allow [.signMessage]]
      else []).flatMap (·.permissions) ↔
        p.chain ∈ s.chains ∧ p.effect = .allow ∧ p.action = .signMessage ∧ s.signing = true ∧
          p.conditions = [] := by
    cases hs : s.signing <;> simp [mem_scopeOf]
  simp only [Document.permissions, document, scopes, List.flatMap_append, List.mem_append, hblocked,
    hsigning, List.flatMap_cons, List.flatMap_nil, List.not_mem_nil, or_false, mem_transferScope,
    mem_scopeOf, List.mem_singleton]
  by_cases hc : p.chain ∈ s.chains
  · simp only [hc, true_and, and_or_left, or_and_right, or_assoc]
  · simp [hc]

theorem conditions_of_allow (hp : p ∈ (s.document partner).permissions) (he : p.effect = .allow) :
    p.conditions = if p.action = .transfer then s.transferConditions else [] := by
  obtain ⟨_, ⟨_, ha, hc⟩ | ⟨hd, _⟩ | ⟨_, ha, _, hc⟩⟩ := mem_permissions.mp hp
  · simp [ha, hc]
  · simp [he] at hd
  · simp [ha, hc]

/-- A request meets permissions, and only allowing ones, when its chain is covered and its action is
a transfer or a signature that is asked for, and not blocked. -/
theorem matching_allow_iff : (∀ p ∈ (s.document partner).matching r, p.effect = .allow) ∧
      (s.document partner).matching r ≠ [] ↔
    r.chain ∈ s.chains ∧ r.action ∉ s.blocked ∧
      (r.action = .transfer ∨ r.action = .signMessage ∧ s.signing = true) := by
  simp only [Document.mem_matching, mem_permissions]
  constructor
  · rintro ⟨hall, hne⟩
    obtain ⟨p, hp⟩ := List.exists_mem_of_ne_nil _ hne
    obtain ⟨hp, hchain, haction⟩ := Document.mem_matching.mp hp
    have hc : r.chain ∈ s.chains := hchain ▸ (mem_permissions.mp hp).1
    have hdenied : ¬ (r.action = .deployContract ∨ r.action = .smartContract ∨
        r.action ∈ s.blocked) := fun ha => by
      simpa using hall ⟨.deny, r.chain, r.action, []⟩
        ⟨⟨hc, Or.inr (Or.inl ⟨rfl, ha, rfl⟩)⟩, rfl, rfl⟩
    refine ⟨hc, fun hb => hdenied (Or.inr (Or.inr hb)), ?_⟩
    rw [← haction] at hdenied ⊢
    obtain ⟨_, ⟨_, ha, _⟩ | ⟨_, ha, _⟩ | ⟨_, ha, hs, _⟩⟩ := mem_permissions.mp hp
    · exact Or.inl ha
    · exact absurd ha hdenied
    · exact Or.inr ⟨ha, hs⟩
  · rintro ⟨hc, hb, ha⟩
    constructor
    · rintro p ⟨⟨_, ⟨he, _⟩ | ⟨_, hd, _⟩ | ⟨he, _⟩⟩, _, haction⟩
      · exact he
      · rw [haction] at hd
        rcases ha with ha | ⟨ha, _⟩ <;> simp_all
      · exact he
    · rcases ha with ha | ⟨ha, hs⟩
      · refine List.ne_nil_of_mem (a := ⟨.allow, r.chain, .transfer, s.transferConditions⟩) ?_
        exact Document.mem_matching.mpr
          ⟨mem_permissions.mpr ⟨hc, Or.inl ⟨rfl, rfl, rfl⟩⟩, rfl, ha.symm⟩
      · refine List.ne_nil_of_mem (a := ⟨.allow, r.chain, .signMessage, []⟩) ?_
        exact Document.mem_matching.mpr
          ⟨mem_permissions.mpr ⟨hc, Or.inr (Or.inr ⟨rfl, rfl, hs, rfl⟩)⟩, rfl, ha.symm⟩

theorem decide_allowed_iff : ((s.document partner).decide r).allowed = true ↔
    r.chain ∈ s.chains ∧ r.action ∉ s.blocked ∧
      (r.action = .transfer ∧ (∀ c ∈ s.transferConditions, c.check r = none) ∨
        r.action = .signMessage ∧ s.signing = true) := by
  have hcs : ∀ p ∈ (s.document partner).matching r, p.effect = .allow →
      p.conditions = if r.action = .transfer then s.transferConditions else [] := by
    intro p hp he
    obtain ⟨hmem, _, ha⟩ := Document.mem_matching.mp hp
    rw [← ha]
    exact conditions_of_allow hmem he
  rw [Document.decide_allowed_iff hcs, ← and_assoc, matching_allow_iff]
  by_cases ha : r.action = .transfer <;> simp [ha, and_assoc]

theorem forall_transferConditions : (∀ c ∈ s.transferConditions, c.check r = none) ↔
    (∀ limit, s.usdLimit = some limit → ∀ usd, r.valueUsd = some usd → limit.le usd = false) ∧
      (s.addresses ≠ [] → ∀ address, r.recipient = some address →
        Address.key address ∈ s.addresses.map Address.key) := by
  simp only [transferConditions, List.mem_append, or_imp, forall_and]
  refine and_congr ?_ ?_
  · cases hl : s.usdLimit <;> simp [Condition.check_lessThan]
  · cases ha : s.addresses <;> simp [Condition.check_includedIn]

end Settings

namespace Options

variable {o : Options} {s : Settings} {defaultChains partner : Json} {r : Request}
  {now : Option Number}

theorem timestamp_iff {label : String} {v : Json} {t : Option Number}
    (h : checkTimestamp label v = .ok t) (n : Number) : t = some n ↔ v = .number n := by
  rcases checkTimestamp_eq_ok.mp h with ⟨rfl, rfl⟩ | ⟨m, rfl, _, rfl⟩ <;> simp

theorem inWindow_iff (h : o.check defaultChains = .ok s) {d : Document}
    (hf : d.validFrom = s.validFrom) (ht : d.validTo = s.validTo) :
    now.bind d.checkWindow = none ↔ o.InWindow now := by
  obtain ⟨_, _, hw, _⟩ := check_eq_ok.mp h
  obtain ⟨hfrom, hto⟩ := checkWindow_eq_ok hw
  cases now <;> simp [InWindow, Document.checkWindow_eq_none, hf, ht, timestamp_iff hfrom,
    timestamp_iff hto]

theorem onChain_iff (h : o.check defaultChains = .ok s) {chain : String} :
    chain ∈ s.chains ↔ o.OnChain defaultChains chain := by
  obtain ⟨_, _, _, hc, _⟩ := check_eq_ok.mp h
  simp [OnChain, hc]

theorem mem_blocked_iff (h : o.check defaultChains = .ok s) {a : Action}
    (ha : a ≠ .deployContract ∧ a ≠ .smartContract) : a ∈ s.blocked ↔ o.Blocks a := by
  obtain ⟨_, _, _, _, ⟨entries, he, hb⟩, _⟩ := check_eq_ok.mp h
  simp [Blocks, he, hb, BlockedEntry.mem_extraBlocks, ha]

theorem belowLimit_iff (h : o.check defaultChains = .ok s)
    (hv : r.valueUsd ≠ some (.double .nan)) :
    (∀ limit, s.usdLimit = some limit → ∀ usd, r.valueUsd = some usd → limit.le usd = false) ↔
      o.BelowLimit r.valueUsd := by
  rcases checkLimit_eq_ok.mp (check_eq_ok.mp h).1 with ⟨hl, hs⟩ | ⟨n, hl, hn, _, hs⟩
  · simp [BelowLimit, hl, hs]
  · have hnan := Number.ne_nan_of_isFinite hn rfl
    simp only [BelowLimit, hl, hs, Option.some.injEq, Json.number.injEq, forall_eq']
    refine forall₂_congr fun usd husd => Number.le_eq_false_iff hnan ?_
    rintro rfl
    exact hv husd

theorem mem_addresses_iff {listed : List Json} {keys : List String}
    (h : listed.mapM checkAddress = .ok keys) {key : String} :
    key ∈ (sortedTexts keys).map Address.key ↔ ∃ a, .string a ∈ listed ∧ Address.key a = key := by
  simp only [List.mem_map, mem_sortedTexts, mem_of_mapM h, checkAddress_eq_ok]
  constructor
  · rintro ⟨_, ⟨_, hmem, a, rfl, ha, rfl⟩, rfl⟩
    exact ⟨a, hmem, (Address.key_key ha).symm⟩
  · rintro ⟨a, hmem, rfl⟩
    obtain ⟨k, _, hk⟩ := exists_of_mapM h hmem
    obtain ⟨_, ⟨⟩, ha, rfl⟩ := checkAddress_eq_ok.mp hk
    exact ⟨_, ⟨_, hmem, a, rfl, ha, rfl⟩, Address.key_key ha⟩

theorem sortedTexts_eq_nil {ss : List String} : sortedTexts ss = [] ↔ ss = [] := by
  simp [List.eq_nil_iff_forall_not_mem, mem_sortedTexts]

theorem toListed_iff (h : o.check defaultChains = .ok s) :
    (s.addresses ≠ [] → ∀ address, r.recipient = some address →
        Address.key address ∈ s.addresses.map Address.key) ↔ o.ToListed r.recipient := by
  rcases checkAddresses_eq_ok (check_eq_ok.mp h).2.1 with ⟨hv, hs⟩ | ⟨listed, keys, hl, hk, hs⟩
  · simp [ToListed, hv, hs, Json.parts]
  · have hnil : keys = [] ↔ listed = [] := by
      rw [← List.length_eq_zero_iff, length_of_mapM hk, List.length_eq_zero_iff]
    simp [ToListed, hl, hs, sortedTexts_eq_nil, hnil, ← mem_addresses_iff hk]

/-- A document compiled from checked options, with its chains in any order, allows what the options
permit. -/
theorem allowed_iff_permits {cs : List String} (h : o.check defaultChains = .ok s)
    (hcs : cs.Perm s.chains) (hv : r.valueUsd ≠ some (.double .nan)) :
    ((Settings.document { s with chains := cs } partner).evaluate r now).allowed = true ↔
      o.Permits defaultChains r now := by
  have hblocked : ∀ a, a ≠ .deployContract ∧ a ≠ .smartContract → (a ∉ s.blocked ↔ ¬ o.Blocks a) :=
    fun a ha => not_congr (mem_blocked_iff h ha)
  have hconditions : (∀ c ∈ s.transferConditions, c.check r = none) ↔
      o.BelowLimit r.valueUsd ∧ o.ToListed r.recipient := by
    rw [Settings.forall_transferConditions, belowLimit_iff h hv, toListed_iff h]
  have hsigning := (check_eq_ok.mp h).2.2.2.2.2
  rw [Document.evaluate_allowed_iff, inWindow_iff h rfl rfl, Settings.decide_allowed_iff, Permits,
    ← onChain_iff h, ← hsigning, ← hblocked .transfer (by decide),
    ← hblocked .signMessage (by decide)]
  change _ ∧ r.chain ∈ cs ∧ r.action ∉ s.blocked ∧
    (r.action = .transfer ∧ (∀ c ∈ s.transferConditions, c.check r = none) ∨ _) ↔ _
  rw [hcs.mem_iff, hconditions]
  refine and_congr_right fun _ => and_congr_right fun _ => ?_
  cases ha : r.action <;> simp
  · exact and_comm

end Options

namespace Request

variable {v : Json} {r : Request}

theorem checkValue_ne_nan {usd : Option Number} (h : checkValue v = .ok usd) :
    usd ≠ some (.double .nan) := by
  unfold checkValue at h
  split at h
  · simp [← pure_eq_ok.mp h]
  · obtain ⟨found, hf, h⟩ := bind_eq_ok.mp h
    cases found with
    | none => exact absurd h nofun
    | some n =>
      have hn := Number.ne_nan_of_isFinite (Json.number_of_finite? hf).2 rfl
      by_cases hlt : n.lt 0 = true
      · simp only [hlt] at h
        exact absurd h nofun
      · simp only [hlt] at h
        simpa [← pure_eq_ok.mp h] using hn

theorem valueUsd_ne_nan (h : ofJson v = .ok r) : r.valueUsd ≠ some (.double .nan) := by
  cases v with
  | object fields =>
    simp only [ofJson, bind_eq_ok] at h
    obtain ⟨_, _, _, _, _, _, _, _, _, _, _, _, _, _, _, _, _, _, usd, husd, _, _, _, _, h⟩ := h
    obtain rfl := pure_eq_ok.mp h
    exact checkValue_ne_nan husd
  | _ => exact absurd h nofun

end Request

/-- The document compiled from options allows a request exactly when the options permit it, and
deploying or calling contracts never. -/
theorem Options.compile_allowed_iff {o : Options} {partner defaultChains v : Json} {d : Document}
    {r : Request} (hd : o.compile partner defaultChains = .ok d) (hr : Request.ofJson v = .ok r)
    (now : Option Number) :
    ((d.evaluate r now).allowed = true ↔ o.Permits defaultChains r now) ∧
      (r.action = .deployContract ∨ r.action = .smartContract →
        (d.evaluate r now).allowed = false) := by
  obtain ⟨s, hs, rfl⟩ := compile_eq_ok.mp hd
  have hiff : ((s.document partner).evaluate r now).allowed = true ↔
      o.Permits defaultChains r now :=
    allowed_iff_permits hs (.refl _) (Request.valueUsd_ne_nan hr)
  refine ⟨hiff, fun ha => Bool.eq_false_iff.mpr fun hallowed => ?_⟩
  exact (hiff.mp hallowed).not_contract ha

namespace Options

/-- Less than fifteen dollars to one friend on two chains, and messages, for one second. -/
def pocketMoney : Options where
  usdLimit := .int 15
  allowedAddresses := .ofTexts ["0x52908400098527886E0F7030069857D2E4169EE7"]
  allowedChains := .ofTexts ["8453", "1"]
  allowSignMessages := .bool true
  validFrom := .int 1000
  validTo := .int 2000

theorem pocketMoney_chains : pocketMoney.chains .null = .ok ["8453", "1"] := by
  have hids : checkChains [.string "8453", .string "1"] = .ok ["8453", "1"] :=
    gives_iff.mp (by decide +kernel)
  have hlisted : Chain.listed ["8453", "1"] = .ok ["8453", "1"] :=
    Chain.listed_eq_ok.mpr ⟨[((0, 0), "8453"), ((0, 1), "1")], gives_iff.mp (by decide +kernel), by
      rw [List.mergeSort_of_pairwise (by decide)]
      rfl⟩
  exact chains_eq_ok.mpr (Or.inr ⟨rfl, _, rfl, _, hids, hlisted⟩)

theorem pocketMoney_check : pocketMoney.check .null = .ok {
    chains := ["8453", "1"]
    usdLimit := some 15
    addresses := ["0x52908400098527886e0f7030069857d2e4169ee7"]
    blocked := []
    signing := true
    validFrom := some 1000
    validTo := some 2000 } := by
  refine check_eq_ok.mpr ⟨gives_iff.mp ?_, gives_iff.mp ?_, gives_iff.mp ?_, pocketMoney_chains,
    ⟨[], rfl, rfl⟩, rfl⟩
  all_goals decide +kernel

def gift : Json := .object [
  ("chainId", .int 1),
  ("type", .string "transfer"),
  ("to", .string "0x52908400098527886e0f7030069857D2E4169EE7"),
  ("valueUsd", .int 14)]

def giftRequest : Request where
  chain := "1"
  action := .transfer
  recipient := some "0x52908400098527886e0f7030069857D2E4169EE7"
  valueUsd := some 14
  sender := none
  arguments := none

theorem compile_allowed_iff_pocketMoney : ∃ d,
    pocketMoney.compile (.string "home") .null = .ok d ∧ Request.ofJson gift = .ok giftRequest ∧
      (d.evaluate giftRequest (some 1500)).allowed = true ∧
      pocketMoney.Permits .null giftRequest (some 1500) := by
  have hgift : Request.ofJson gift = .ok giftRequest := gives_iff.mp (by decide +kernel)
  have hd : pocketMoney.compile (.string "home") .null = .ok _ :=
    compile_eq_ok.mpr ⟨_, pocketMoney_check, rfl⟩
  refine ⟨_, hd, hgift, ?_, (compile_allowed_iff hd hgift (some 1500)).1.mp ?_⟩
  · decide +kernel
  · decide +kernel

end Options

end Allowance
