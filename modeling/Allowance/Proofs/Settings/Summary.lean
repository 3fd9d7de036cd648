import Allowance.Proofs.Document.Shape
import Allowance.Proofs.Document.Summary
import Allowance.Proofs.Settings.Canonical

/-! # The summary of a compiled document

Compiling repeats the settings on every chain and in every scope. The summary collects them again:
it shows the chains in their order, the limit, the keys of the listed addresses and the denied
actions of the options that were compiled, whichever optional scopes the document has. Only where
there is no chain is there nothing to collect from.
-/

namespace Allowance

open Checked

section FirstPlaces

variable {kept ss : List String}

theorem foldl_keepNew_of_subset (h : ss ⊆ kept) : ss.foldl keepNew kept = kept := by
  induction ss with
  | nil => rfl
  | cons s ss ih =>
    obtain ⟨hs, hss⟩ := List.cons_subset.mp h
    rw [List.foldl_cons, keepNew, if_pos (List.contains_iff_mem.mpr hs), ih hss]

theorem foldl_keepNew_of_nodup (h : (kept ++ ss).Nodup) : ss.foldl keepNew kept = kept ++ ss := by
  induction ss generalizing kept with
  | nil => simp
  | cons s ss ih =>
    have hnew : s ∉ kept := fun hs => (List.nodup_append.mp h).2.2 s hs s (by simp) rfl
    have hmoved : kept ++ s :: ss = kept ++ [s] ++ ss := by simp
    rw [hmoved] at h ⊢
    rw [List.foldl_cons, keepNew, if_neg (by simpa using hnew), ih h]

/-- Different elements followed by some of them again are kept as they stand. -/
theorem firstPlaces_append (h : kept.Nodup) (hss : ss ⊆ kept) :
    firstPlaces (kept ++ ss) = kept := by
  have hkept : kept.foldl keepNew [] = kept := @foldl_keepNew_of_nodup [] kept h
  rw [firstPlaces_eq, List.foldl_append, hkept, foldl_keepNew_of_subset hss]

end FirstPlaces

namespace Document

theorem get?_chain_summary (d : Document) :
    d.summary.get? "chain" = some (.string (chainSummary d.allowedChains)) := rfl

theorem chainSummary_eq_base {cs : List String} :
    chainSummary cs = "Base only" ↔ cs = [Chain.base.id] := by
  unfold chainSummary
  by_cases hbase : cs = [Chain.base.id]
  · simp [hbase]
  · -- The texts end in different letters.
    have hne : Text.natText cs.length ++ " chains" ≠ "Base only" := by
      intro h
      have hlast := congrArg (·.toList.getLast?) h
      simp [List.getLast?_append] at hlast
    simp [hbase, hne]

end Document

namespace Settings

variable {s : Settings} {partner : Json} {c : Condition} {a : Action} {n : Number}

def openChains (scopes : List Scope) : List String :=
  ((scopes.flatMap (·.permissions)).filter (·.effect == .allow)).map (·.chain)

theorem openChains_append (first second : List Scope) :
    openChains (first ++ second) = openChains first ++ openChains second := by
  simp [openChains]

theorem openChains_transfer : openChains [s.transferScope] = s.chains := by
  have hall : s.transferScope.permissions.filter (·.effect == .allow) =
      s.transferScope.permissions :=
    List.filter_eq_self.mpr fun p hp => by simp [(mem_transferScope.mp hp).2.1]
  simp only [openChains, List.flatMap_cons, List.flatMap_nil, List.append_nil, hall]
  simp [transferScope, Function.comp_def]

theorem openChains_subset {scopes : List Scope}
    (h : ∀ scope ∈ scopes, ∀ p ∈ scope.permissions, p.chain ∈ s.chains) :
    openChains scopes ⊆ s.chains := by
  intro chain hchain
  obtain ⟨p, hp, rfl⟩ := List.mem_map.mp hchain
  obtain ⟨scope, hscope, hp⟩ := List.mem_flatMap.mp (List.mem_filter.mp hp).1
  exact h scope hscope p hp

theorem allowedChains_document (h : s.chains.Nodup) (partner : Json) :
    (s.document partner).allowedChains = s.chains := by
  have hpermissions {p : Permission} (hp : p ∈ (s.document partner).permissions) :
      p.chain ∈ s.chains := (mem_permissions.mp hp).1
  obtain ⟨rest, hrest⟩ : ∃ rest, s.scopes = [s.transferScope] ++ rest := ⟨_, rfl⟩
  have hsubset : openChains rest ⊆ s.chains := openChains_subset fun scope hscope p hp =>
    hpermissions (List.mem_flatMap.mpr ⟨scope, by simp [document, hrest, hscope], hp⟩)
  change firstPlaces (openChains s.scopes) = s.chains
  rw [hrest, openChains_append, openChains_transfer, firstPlaces_append h hsubset]

theorem mem_transferConditions_document (h : s.chains ≠ []) :
    c ∈ (s.document partner).transferConditions ↔ c ∈ s.transferConditions := by
  rw [Document.mem_transferConditions]
  constructor
  · rintro ⟨p, hp, ⟨heffect, haction⟩, hc⟩
    rwa [conditions_of_allow hp heffect, if_pos haction] at hc
  · intro hc
    obtain ⟨chain, hchain⟩ := List.exists_mem_of_ne_nil _ h
    exact ⟨⟨.allow, chain, .transfer, s.transferConditions⟩,
      mem_permissions.mpr ⟨hchain, Or.inl ⟨rfl, rfl, rfl⟩⟩, ⟨rfl, rfl⟩, hc⟩

theorem limit?_of_mem (hc : c ∈ s.transferConditions) (h : c.limit? = some n) :
    s.usdLimit = some n := by
  rcases List.mem_append.mp hc with hc | hc
  · cases hl : s.usdLimit with
    | none => simp [hl] at hc
    | some limit =>
      obtain rfl : c = ⟨.value, .lessThan limit⟩ := by simpa [hl] using hc
      exact h
  · split at hc
    · simp at hc
    · obtain rfl := List.mem_singleton.mp hc
      simp [Condition.limit?] at h

theorem recipients?_of_mem {listed : List String} (hc : c ∈ s.transferConditions)
    (h : c.recipients? = some listed) : s.addresses ≠ [] ∧ listed = s.addresses := by
  rcases List.mem_append.mp hc with hc | hc
  · cases hl : s.usdLimit with
    | none => simp [hl] at hc
    | some limit =>
      obtain rfl : c = ⟨.value, .lessThan limit⟩ := by simpa [hl] using hc
      simp [Condition.recipients?] at h
  · split at hc
    · simp at hc
    · rename_i hne
      obtain rfl := List.mem_singleton.mp hc
      exact ⟨by simpa using hne, (Option.some.inj h).symm⟩

theorem usdLimit_document (h : s.chains ≠ []) : (s.document partner).usdLimit = s.usdLimit := by
  have hmem {n : Number} (hn : n ∈ (s.document partner).limits) : s.usdLimit = some n := by
    obtain ⟨c, hc, hlimit⟩ := List.mem_filterMap.mp hn
    exact limit?_of_mem ((mem_transferConditions_document h).mp hc) hlimit
  rw [Document.usdLimit_eq]
  cases hsmallest : smallest? (s.document partner).limits with
  | some m => exact (hmem (mem_of_smallest? hsmallest)).symm
  | none =>
    rw [smallest?_eq_none] at hsmallest
    cases hl : s.usdLimit with
    | none => rfl
    | some n =>
      have hc : (⟨.value, .lessThan n⟩ : Condition) ∈ (s.document partner).transferConditions :=
        (mem_transferConditions_document h).mpr (by simp [transferConditions, hl])
      have hn : n ∈ (s.document partner).limits := List.mem_filterMap.mpr ⟨_, hc, rfl⟩
      simp [hsmallest] at hn

theorem allowedAddresses_document (h : s.chains ≠ []) : (s.document partner).allowedAddresses =
    if s.addresses = [] then none else some s.addresses := by
  cases hfound : (s.document partner).allowedAddresses with
  | some listed =>
    obtain ⟨c, hc, hlisted⟩ := List.exists_of_findSome?_eq_some hfound
    obtain ⟨hne, rfl⟩ := recipients?_of_mem ((mem_transferConditions_document h).mp hc) hlisted
    rw [if_neg hne]
  | none =>
    by_cases hne : s.addresses = []
    · rw [if_pos hne]
    · have hc : (⟨.recipient, .includedIn s.addresses⟩ : Condition) ∈
          (s.document partner).transferConditions :=
        (mem_transferConditions_document h).mpr (by simp [transferConditions, hne])
      exact absurd (List.findSome?_eq_none_iff.mp hfound _ hc) (by simp [Condition.recipients?])

theorem denies_document (h : s.chains ≠ []) : (s.document partner).denies a = true ↔
    a = .deployContract ∨ a = .smartContract ∨ a ∈ s.blocked := by
  rw [Document.denies_iff]
  constructor
  · rintro ⟨p, hp, heffect, rfl⟩
    obtain ⟨-, ⟨hallow, -⟩ | ⟨-, hdenied, -⟩ | ⟨hallow, -⟩⟩ := mem_permissions.mp hp
    · simp [heffect] at hallow
    · exact hdenied
    · simp [heffect] at hallow
  · intro hdenied
    obtain ⟨chain, hchain⟩ := List.exists_mem_of_ne_nil _ h
    exact ⟨⟨.deny, chain, a, []⟩,
      mem_permissions.mpr ⟨hchain, Or.inr (Or.inl ⟨rfl, hdenied, rfl⟩)⟩, rfl, rfl⟩

end Settings

namespace Options

variable {o : Options} {s : Settings} {d : Document} {partner defaultChains : Json}
  {cs : List String} {a : Action}

def Lists (o : Options) (listed : List Json) : Prop :=
  o.allowedAddresses = .null ∧ listed = [] ∨ o.allowedAddresses.parts = .ok listed

/-- The summary of the document shows what the options ask for on the chains. -/
structure ShownBy (o : Options) (cs : List String) (d : Document) : Prop where
  chains : d.allowedChains = cs
  nodup : cs.Nodup
  limit : Json.ofNumber? d.usdLimit = o.usdLimit
  addresses : ∃ listed keys, o.Lists listed ∧ keys.Pairwise (· < ·) ∧
    (∀ key, key ∈ keys ↔ ∃ a, .string a ∈ listed ∧ Address.key a = key) ∧
    d.allowedAddresses = if listed = [] then none else some keys
  denies : ∀ a, d.denies a = true ↔ a = .deployContract ∨ a = .smartContract ∨ o.Blocks a
  base : d.summary.get? "chain" = some (.string "Base only") ↔ cs = [Chain.base.id]

theorem limit_of_check (h : o.check defaultChains = .ok s) :
    Json.ofNumber? s.usdLimit = o.usdLimit := by
  rcases checkLimit_eq_ok.mp (check_eq_ok.mp h).1 with ⟨hnull, hs⟩ | ⟨n, hn, -, -, hs⟩
  · rw [hnull, hs]
    rfl
  · rw [hn, hs]
    rfl

theorem pairwise_sortedTexts (ss : List String) : (sortedTexts ss).Pairwise (· < ·) :=
  pairwise_eraseDups (pairwise_mergeSort ss)

theorem addresses_of_check (h : o.check defaultChains = .ok s) : ∃ listed, o.Lists listed ∧
    s.addresses.Pairwise (· < ·) ∧
    (∀ key, key ∈ s.addresses ↔ ∃ a, .string a ∈ listed ∧ Address.key a = key) ∧
    (s.addresses = [] ↔ listed = []) := by
  rcases checkAddresses_eq_ok (check_eq_ok.mp h).2.1 with ⟨hv, hs⟩ | ⟨listed, keys, hl, hk, hs⟩
  · exact ⟨[], Or.inl ⟨hv, rfl⟩, by simp [hs], by simp [hs], by simp [hs]⟩
  · have hnil : keys = [] ↔ listed = [] := by
      rw [← List.length_eq_zero_iff, length_of_mapM hk, List.length_eq_zero_iff]
    refine ⟨listed, Or.inr hl, hs ▸ pairwise_sortedTexts keys, fun key => ?_, ?_⟩
    · rw [hs, mem_sortedTexts, mem_of_mapM hk]
      simp only [checkAddress_eq_ok]
      constructor
      · rintro ⟨_, hmem, a, rfl, -, rfl⟩
        exact ⟨a, hmem, rfl⟩
      · rintro ⟨a, hmem, rfl⟩
        obtain ⟨_, -, hkey⟩ := exists_of_mapM hk hmem
        obtain ⟨_, ⟨⟩, ha, -⟩ := checkAddress_eq_ok.mp hkey
        exact ⟨_, hmem, a, rfl, ha, rfl⟩
    · rw [hs, sortedTexts_eq_nil, hnil]

theorem denied_iff (h : o.check defaultChains = .ok s) :
    (a = .deployContract ∨ a = .smartContract ∨ a ∈ s.blocked) ↔
      a = .deployContract ∨ a = .smartContract ∨ o.Blocks a := by
  by_cases ha : a = .deployContract ∨ a = .smartContract
  · rw [← or_assoc, ← or_assoc]
    simp [ha]
  · rw [mem_blocked_iff h (not_or.mp ha)]

/-- The summary of a document compiled on some chains shows what was compiled: the chains in order,
the limit, the keys of the listed addresses, and the denied actions. -/
theorem compile_shown (hd : o.compile partner defaultChains = .ok d)
    (hcs : o.chains defaultChains = .ok cs) (hne : cs ≠ []) : o.ShownBy cs d := by
  obtain ⟨s, hs, rfl⟩ := compile_eq_ok.mp hd
  obtain ⟨-, -, -, hchains, -⟩ := check_eq_ok.mp hs
  obtain rfl := Except.ok.inj (hchains.symm.trans hcs)
  have hnodup := (chains_nodup hcs).1
  have hallowed := Settings.allowedChains_document hnodup partner
  obtain ⟨listed, hlisted, hsorted, hkeys, hnil⟩ := addresses_of_check hs
  constructor
  · exact hallowed
  · exact hnodup
  · rw [Settings.usdLimit_document hne, limit_of_check hs]
  · refine ⟨listed, s.addresses, hlisted, hsorted, hkeys, ?_⟩
    simp only [Settings.allowedAddresses_document hne, hnil]
  · intro a
    rw [Settings.denies_document hne, denied_iff hs]
  · rw [Document.get?_chain_summary, hallowed, Option.some.injEq, Json.string.injEq,
      Document.chainSummary_eq_base]

theorem compile_shown_pocketMoney : ∃ d, pocketMoney.compile (.string "home") .null = .ok d ∧
    pocketMoney.chains .null = .ok ["8453", "1"] ∧ ["8453", "1"] ≠ [] ∧
    pocketMoney.ShownBy ["8453", "1"] d := by
  have hd : pocketMoney.compile (.string "home") .null = .ok _ :=
    compile_eq_ok.mpr ⟨_, pocketMoney_check, rfl⟩
  exact ⟨_, hd, pocketMoney_chains, by simp, compile_shown hd pocketMoney_chains (by simp)⟩

end Options

end Allowance
