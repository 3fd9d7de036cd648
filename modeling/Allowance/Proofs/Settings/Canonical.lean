import Allowance.Proofs.Settings.Order
import Allowance.Proofs.Text.Numeral
import Mathlib.Data.List.Sort
import Mathlib.Data.String.Basic

/-! # When compiling is canonical

Options name sets of chains, addresses and actions. Naming the same elements in another order, or
some of them more than once, gives the same document as long as no two of the resolved chains are
tied. Two ids are tied if neither has a name and they denote the same number, as 2 and 02 do. Tied
ids stay in the order in which they were named.
-/

namespace Allowance

open Checked

namespace Json

variable {us us' : List Json} {v v' : Json}

/-- The second value lists the elements of the first in any order, each any number of times. -/
def Relisted (v v' : Json) : Prop :=
  v' = v ∨ v'.text? = none ∧ ∃ us us', v.parts = .ok us ∧ v'.parts = .ok us' ∧
    ∀ u, u ∈ us' ↔ u ∈ us

theorem Relisted.refl (v : Json) : v.Relisted v := Or.inl rfl

theorem Relisted.of_array (hv : v.parts = .ok us) (h : ∀ u, u ∈ us' ↔ u ∈ us) :
    v.Relisted (.array us') :=
  Or.inr ⟨rfl, us, us', hv, rfl, h⟩

theorem partsIfAny_of_parts (h : v.parts = .ok us) : v.partsIfAny = .ok us := by
  rw [partsIfAny]
  split
  · exact h
  · rename_i hv
    cases v <;> simp_all [parts, truthy]

theorem parts_of_partsIfAny (h : v.partsIfAny = .ok us) (hne : us ≠ []) : v.parts = .ok us := by
  rw [partsIfAny] at h
  split at h
  · exact h
  · exact absurd (Except.ok.inj h).symm hne

end Json

open Json (Relisted)

namespace Chain

variable {a b : String} {ids others out : List String} {i j : Nat × Int}

/-- Two ids without names that denote the same number. -/
def Tied (a b : String) : Prop :=
  a ∉ namedIds ∧ b ∉ namedIds ∧ Text.digitsValue a.toList = Text.digitsValue b.toList

instance (a b : String) : Decidable (Tied a b) := inferInstanceAs (Decidable (_ ∧ _ ∧ _))

theorem Tied.symm (h : Tied a b) : Tied b a := ⟨h.2.1, h.1, h.2.2.symm⟩

theorem rank_of_named (h : a ∈ namedIds) :
    ∃ place : Nat, rank a = .ok (0, (place : Int)) ∧ namedIds[place]? = some a := by
  cases hfind : namedIds.findIdx? (· == a) with
  | none => exact absurd (List.findIdx?_eq_none_iff.mp hfind a h) (by simp)
  | some place =>
    obtain ⟨hlt, hplace, _⟩ := List.findIdx?_eq_some_iff_getElem.mp hfind
    exact ⟨place, by simp [rank, hfind], by simpa [List.getElem?_eq_getElem hlt] using hplace⟩

theorem rank_of_unnamed (h : a ∉ namedIds) (hid : isId a = true) (hr : rank a = .ok i) :
    i = (1, (Text.digitsValue a.toList : Int)) := by
  have hfind : namedIds.findIdx? (· == a) = none := by
    refine List.findIdx?_eq_none_iff.mpr fun id hmem => ?_
    simpa using fun heq : id = a => h (heq ▸ hmem)
  simp only [isId, Bool.and_eq_true, List.all_eq_true, Bool.not_eq_true'] at hid
  have hne : a.toList ≠ [] := fun hnil => by simp_all
  simp only [rank, hfind, Text.readInt?_of_digits hne hid.2] at hr
  split at hr <;> rename_i hread
  · split at hread
    · cases hread
    · obtain rfl := Option.some.inj hread
      exact (Except.ok.inj hr).symm
  · cases hr

/-- Two ids are listed at one place just if they are one id or tied. -/
theorem rank_eq_iff (ha : isId a = true) (hb : isId b = true) (hra : rank a = .ok i)
    (hrb : rank b = .ok j) : i = j ↔ a = b ∨ Tied a b := by
  have hsame : a = b → i = j := by
    rintro rfl
    exact Except.ok.inj (hra.symm.trans hrb)
  by_cases hna : a ∈ namedIds
  · obtain ⟨place, hplace, hget⟩ := rank_of_named hna
    obtain rfl := Except.ok.inj (hra.symm.trans hplace)
    refine ⟨fun hij => Or.inl ?_, fun h => h.elim hsame fun ht => absurd hna ht.1⟩
    by_cases hnb : b ∈ namedIds
    · obtain ⟨place', hplace', hget'⟩ := rank_of_named hnb
      obtain rfl := Except.ok.inj (hrb.symm.trans hplace')
      obtain rfl : place = place' := Int.ofNat.inj (Prod.ext_iff.mp hij).2
      exact Option.some.inj (hget.symm.trans hget')
    · simp [rank_of_unnamed hnb hb hrb] at hij
  · obtain rfl := rank_of_unnamed hna ha hra
    by_cases hnb : b ∈ namedIds
    · obtain ⟨place', hplace', _⟩ := rank_of_named hnb
      obtain rfl := Except.ok.inj (hrb.symm.trans hplace')
      exact ⟨fun hij => by simp at hij, fun h => h.elim hsame fun ht => absurd hnb ht.2.1⟩
    · obtain rfl := rank_of_unnamed hnb hb hrb
      refine ⟨fun hij => Or.inr ⟨hna, hnb, Int.ofNat.inj (Prod.ext_iff.mp hij).2⟩,
        fun h => h.elim hsame fun ht => ?_⟩
      rw [ht.2.2]

theorem rankLe_iff : rankLe i j = true ↔ i.1 < j.1 ∨ i.1 = j.1 ∧ i.2 ≤ j.2 := by
  simp [rankLe]

theorem rankLe_trans {k : Nat × Int} (hij : rankLe i j = true) (hjk : rankLe j k = true) :
    rankLe i k = true := by
  rw [rankLe_iff] at *
  omega

theorem rankLe_total (i j : Nat × Int) : (rankLe i j || rankLe j i) = true := by
  rw [Bool.or_eq_true, rankLe_iff, rankLe_iff]
  omega

theorem rankLe_antisymm (hij : rankLe i j = true) (hji : rankLe j i = true) : i = j := by
  rw [rankLe_iff] at *
  exact Prod.ext (by omega) (by omega)

theorem pairwise_ranked (ranked : List ((Nat × Int) × String)) :
    (ranked.mergeSort fun x y => rankLe x.1 y.1).Pairwise fun x y => rankLe x.1 y.1 = true :=
  @List.pairwise_mergeSort _ (fun x y => rankLe x.1 y.1) (fun _ _ _ => rankLe_trans)
    (fun _ _ => rankLe_total _ _) ranked

theorem rank_of_mem_ranked {ranked : List ((Nat × Int) × String)}
    (h : ids.mapM (fun id => do return (← rank id, id)) = .ok ranked) {x : (Nat × Int) × String}
    (hx : x ∈ ranked) : x.2 ∈ ids ∧ rank x.2 = .ok x.1 := by
  obtain ⟨id, hid, hrank⟩ := (mem_of_mapM h).mp hx
  obtain ⟨place, hplace, hpair⟩ := bind_eq_ok.mp hrank
  obtain rfl := pure_eq_ok.mp hpair
  exact ⟨hid, hplace⟩

theorem listed_eq_of_perm (hp : ids.Perm others) (h : listed ids = .ok out)
    (hplaces : ∀ a ∈ ids, ∀ b ∈ ids, ∀ i, rank a = .ok i → rank b = .ok i → a = b) :
    listed others = .ok out := by
  obtain ⟨ranked, hranked, rfl⟩ := listed_eq_ok.mp h
  obtain ⟨ranked', hranked', hperm⟩ := mapM_of_perm hp hranked
  have hsorted : (ranked'.mergeSort fun x y => rankLe x.1 y.1).Perm
      (ranked.mergeSort fun x y => rankLe x.1 y.1) :=
    ((List.mergeSort_perm ..).trans hperm).trans (List.mergeSort_perm ..).symm
  refine listed_eq_ok.mpr ⟨ranked', hranked', ?_⟩
  rw [hsorted.eq_of_pairwise (fun x y hx hy hxy hyx => ?_) (pairwise_ranked _)
    (pairwise_ranked _)]
  have hplace : x.1 = y.1 := rankLe_antisymm hxy hyx
  obtain ⟨hxid, hxrank⟩ :=
    rank_of_mem_ranked hranked (hperm.mem_iff.mp ((List.mergeSort_perm ..).mem_iff.mp hx))
  obtain ⟨hyid, hyrank⟩ := rank_of_mem_ranked hranked ((List.mergeSort_perm ..).mem_iff.mp hy)
  exact Prod.ext hplace (hplaces _ hxid _ hyid _ hxrank (hplace ▸ hyrank))

/-- Ids at one place stay in the order in which they come. -/
theorem pair_sublist_listed (h : listed ids = .ok out) (ha : rank a = .ok i) (hb : rank b = .ok i)
    (hab : [a, b].Sublist ids) : [a, b].Sublist out := by
  obtain ⟨ranked, hranked, rfl⟩ := listed_eq_ok.mp h
  rw [← map_snd_of_ranked hranked] at hab
  obtain ⟨pair, hsub, hpair⟩ := List.sublist_map_iff.mp hab
  obtain ⟨x, _, rfl, rfl, hrest⟩ := List.map_eq_cons_iff.mp hpair.symm
  obtain ⟨y, _, rfl, rfl, hnil⟩ := List.map_eq_cons_iff.mp hrest
  obtain rfl := List.map_eq_nil_iff.mp hnil
  have hx := (rank_of_mem_ranked hranked (hsub.mem (by simp : x ∈ [x, y]))).2
  have hy := (rank_of_mem_ranked hranked (hsub.mem (by simp : y ∈ [x, y]))).2
  have hplace : x.1 = y.1 := by
    rw [← Except.ok.inj (ha.symm.trans hx), Except.ok.inj (hb.symm.trans hy)]
  have hle : rankLe x.1 y.1 = true := rankLe_iff.mpr (Or.inr (by simp [hplace]))
  have hpair := @List.pair_sublist_mergeSort _ (fun x y => rankLe x.1 y.1) x y ranked
    (fun _ _ _ => rankLe_trans) (fun _ _ => rankLe_total _ _) hle hsub
  exact hpair.map (·.2)

end Chain

namespace Options

variable {o o' : Options} {default default' partner v v' : Json} {s : Settings}
  {u : Json} {us us' vs vs' : List Json} {cs ss ts : List String}

theorem pairwise_eraseDups (h : ss.Pairwise (· ≤ ·)) : ss.eraseDups.Pairwise (· < ·) := by
  induction hn : ss.length using Nat.strongRecOn generalizing ss with
  | ind n ih =>
    cases ss with
    | nil => exact .nil
    | cons t ss =>
      obtain ⟨hle, hss⟩ := List.pairwise_cons.mp h
      have hlt : (ss.filter fun u => !u == t).length < n :=
        hn ▸ Nat.lt_succ_of_le (List.length_filter_le ..)
      rw [List.eraseDups_cons]
      refine .cons (fun u hu => ?_) (ih _ hlt (hss.filter _) rfl)
      obtain ⟨hmem, hne⟩ := List.mem_filter.mp (List.mem_eraseDups.mp hu)
      exact lt_of_le_of_ne (hle u hmem) fun heq => by simp [heq] at hne

theorem sortedTexts_congr (h : ∀ s, s ∈ ts ↔ s ∈ ss) : sortedTexts ts = sortedTexts ss :=
  (pairwise_eraseDups (pairwise_mergeSort ts)).eq_of_mem_iff
    (pairwise_eraseDups (pairwise_mergeSort ss)) fun s =>
      mem_sortedTexts.trans ((h s).trans mem_sortedTexts.symm)

theorem texts_of_ids (h : ∀ v ∈ vs, Chain.isIdValue v = true) : ∀ v ∈ vs, ∃ s, v = .string s := by
  intro v hv
  cases v with
  | string s => exact ⟨s, rfl⟩
  | _ => exact absurd (h _ hv) nofun

theorem mem_members (hm : Json.members us = .ok vs) (htexts : ∀ v ∈ vs, ∃ s, v = .string s) :
    u ∈ vs ↔ u ∈ us := by
  rw [Json.members] at hm
  split at hm
  · rename_i hall
    obtain rfl := Except.ok.inj hm
    exact Json.mem_distinct (List.all_eq_true.mp hall) htexts
  · exact absurd hm misuse_ne_ok

theorem members_of_relisted (h : ∀ u, u ∈ us' ↔ u ∈ us) (hm : Json.members us = .ok vs)
    (htexts : ∀ v ∈ vs, ∃ s, v = .string s) :
    ∃ vs', Json.members us' = .ok vs' ∧ vs.Perm vs' := by
  have htexts' : ∀ u ∈ us', ∃ s, u = .string s := fun u hu =>
    htexts u ((mem_members hm htexts).mpr ((h u).mp hu))
  have hall : us'.all Json.isScalar = true := by
    refine List.all_eq_true.mpr fun u hu => ?_
    obtain ⟨s, rfl⟩ := htexts' u hu
    rfl
  have hm' : Json.members us' = .ok (Json.distinct us') := if_pos hall
  refine ⟨_, hm', (List.perm_ext_iff_of_nodup (Json.isSet_of_members hm).nodup
    (Json.isSet_of_members hm').nodup).mpr fun u => ?_⟩
  rw [mem_members hm htexts, ← h,
    mem_members hm' fun v hv => htexts' v (Json.mem_of_mem_distinct hv)]

theorem members_of_partsIfAny (h : v.Relisted v') (hus : v.partsIfAny = .ok us)
    (hm : Json.members us = .ok vs) (htexts : ∀ v ∈ vs, ∃ s, v = .string s) :
    ∃ us' vs', v'.partsIfAny = .ok us' ∧ Json.members us' = .ok vs' ∧ vs.Perm vs' := by
  rcases h with rfl | ⟨_, ws, us', hws, hus', hmem⟩
  · exact ⟨us, vs, hus, hm, .refl _⟩
  · obtain rfl := Except.ok.inj ((Json.partsIfAny_of_parts hws).symm.trans hus)
    obtain ⟨vs', hvs', hperm⟩ := members_of_relisted hmem hm htexts
    exact ⟨us', vs', Json.partsIfAny_of_parts hus', hvs', hperm⟩

theorem members_of_parts (h : v.Relisted v') (hus : v.parts = .ok us)
    (hm : Json.members us = .ok vs) (htexts : ∀ v ∈ vs, ∃ s, v = .string s) :
    ∃ us' vs', v'.parts = .ok us' ∧ Json.members us' = .ok vs' ∧ vs.Perm vs' := by
  rcases h with rfl | ⟨_, ws, us', hws, hus', hmem⟩
  · exact ⟨us, vs, hus, hm, .refl _⟩
  · obtain rfl := Except.ok.inj (hws.symm.trans hus)
    obtain ⟨vs', hvs', hperm⟩ := members_of_relisted hmem hm htexts
    exact ⟨us', vs', hus', hvs', hperm⟩

theorem chosenChains_of_relisted (hc : o.allowedChains.Relisted o'.allowedChains)
    (hd : default.Relisted default') (h : o.chosenChains default = .ok vs)
    (htexts : ∀ v ∈ vs, ∃ s, v = .string s) :
    ∃ vs', o'.chosenChains default' = .ok vs' ∧ vs.Perm vs' := by
  obtain ⟨us, hus, h⟩ := bind_eq_ok.mp h
  obtain ⟨requested, hrequested, h⟩ := bind_eq_ok.mp h
  have hnamed : ∀ v ∈ requested, ∃ s, v = .string s := by
    split at h
    · simp_all
    · obtain rfl := Except.ok.inj h
      exact htexts
  obtain ⟨us', requested', hus', hrequested', hperm⟩ :=
    members_of_partsIfAny hc hus hrequested hnamed
  simp only [chosenChains, hus', hrequested', ok_bind, ← hperm.isEmpty_eq]
  split at h
  · obtain ⟨ds, hds, hvs⟩ := bind_eq_ok.mp h
    obtain ⟨ds', vs', hds', hvs', hperm'⟩ := members_of_parts hd hds hvs htexts
    exact ⟨vs', by simp_all, hperm'⟩
  · obtain rfl := Except.ok.inj h
    exact ⟨requested', by simp_all, hperm⟩

def Untied (cs : List String) : Prop := ∀ a ∈ cs, ∀ b ∈ cs, Chain.Tied a b → a = b

theorem listed_of_untied {ids others out : List String} (hids : ∀ id ∈ ids, Chain.isId id = true)
    (huntied : Untied ids) (hp : ids.Perm others) (h : Chain.listed ids = .ok out) :
    Chain.listed others = .ok out := by
  apply Chain.listed_eq_of_perm hp h
  intro a ha b hb i hra hrb
  obtain heq | htied := (Chain.rank_eq_iff (hids a ha) (hids b hb) hra hrb).mp rfl
  · exact heq
  · exact huntied a ha b hb htied

theorem chains_of_relisted (hbase : o'.restrictToBase.truthy = o.restrictToBase.truthy)
    (hc : o.allowedChains.Relisted o'.allowedChains) (hd : default.Relisted default')
    (h : o.chains default = .ok cs) :
    ∃ cs', o'.chains default' = .ok cs' ∧ cs'.Perm cs ∧ (Untied cs → cs' = cs) := by
  rcases chains_eq_ok.mp h with ⟨hb, rfl⟩ | ⟨hb, vs, hvs, ids, hids, hlisted⟩
  · exact ⟨_, chains_eq_ok.mpr (Or.inl ⟨hbase.trans hb, rfl⟩), .refl _, fun _ => rfl⟩
  · obtain ⟨hall, rfl⟩ := checkChains_eq_ok.mp hids
    obtain ⟨vs', hvs', hperm⟩ := chosenChains_of_relisted hc hd hvs (texts_of_ids hall)
    have hids' : checkChains vs' = .ok (vs'.filterMap Json.text?) :=
      checkChains_eq_ok.mpr ⟨fun v hv => hall v (hperm.mem_iff.mpr hv), rfl⟩
    have hpermIds := hperm.filterMap Json.text?
    obtain ⟨cs', hlisted', hcs⟩ := Chain.listed_of_perm hpermIds hlisted
    refine ⟨cs', chains_eq_ok.mpr (Or.inr ⟨hbase.trans hb, vs', hvs', _, hids', hlisted'⟩), hcs,
      fun huntied => ?_⟩
    have hmem : ∀ a ∈ vs.filterMap Json.text?, a ∈ cs ∧ Chain.isId a = true := fun a ha =>
      have hacs := (Chain.perm_of_listed hlisted).mem_iff.mpr ha
      ⟨hacs, (chains_nodup h).2 a hacs⟩
    refine Except.ok.inj (hlisted'.symm.trans
      (listed_of_untied (fun a ha => (hmem a ha).2) ?_ hpermIds hlisted))
    exact fun a ha b hb => huntied a (hmem a ha).1 b (hmem b hb).1

theorem checkAddresses_of_parts (hparts : v.parts = .ok us) (htext : v.text? = none) :
    checkAddresses v = (do return sortedTexts (← us.mapM checkAddress)) := by
  cases v with
  | array items => simp only [checkAddresses, hparts, ok_bind]
  | object fields => simp only [checkAddresses, hparts, ok_bind]
  | string s => cases htext
  | _ => exact absurd hparts misuse_ne_ok

theorem checkAddresses_of_relisted {keys : List String} (hv : v.Relisted v')
    (h : checkAddresses v = .ok keys) : checkAddresses v' = .ok keys := by
  rcases hv with rfl | ⟨htext, us, us', hus, hus', hmem⟩
  · exact h
  obtain ⟨rfl, _⟩ | ⟨parts, found, hparts, hfound, rfl⟩ := checkAddresses_eq_ok h
  · exact absurd hus misuse_ne_ok
  obtain rfl := Except.ok.inj (hparts.symm.trans hus)
  obtain ⟨found', hfound'⟩ : ∃ found', us'.mapM checkAddress = .ok found' :=
    mapM_of_forall fun u hu =>
      have ⟨key, _, hkey⟩ := exists_of_mapM hfound ((hmem u).mp hu)
      ⟨key, hkey⟩
  have hkeys : sortedTexts found' = sortedTexts found := by
    refine sortedTexts_congr fun key => ?_
    rw [mem_of_mapM hfound, mem_of_mapM hfound']
    simp only [hmem]
  rw [checkAddresses_of_parts hus' htext, hfound', ok_bind, pure_eq_ok, hkeys]

/-- The second options name the same sets as the first, each set with its elements in any order and
any number of times. -/
structure Relisted (o o' : Options) : Prop where
  limit : o'.usdLimit = o.usdLimit
  validFrom : o'.validFrom = o.validFrom
  validTo : o'.validTo = o.validTo
  base : o'.restrictToBase = o.restrictToBase
  signing : o'.allowSignMessages = o.allowSignMessages
  chains : o.allowedChains.Relisted o'.allowedChains
  addresses : o.allowedAddresses.Relisted o'.allowedAddresses
  blocked : ∃ entries entries', o.blockedActions.entries = .ok entries ∧
    o'.blockedActions.entries = .ok entries' ∧ ∀ a, .action a ∈ entries' ↔ .action a ∈ entries

theorem Relisted.check (hr : o.Relisted o') (hd : default.Relisted default')
    (h : o.check default = .ok s) :
    ∃ cs, cs.Perm s.chains ∧ (Untied s.chains → cs = s.chains) ∧
      o'.check default' = .ok { s with chains := cs } := by
  obtain ⟨hlimit, haddresses, hwindow, hchains, ⟨entries, hentries, hblocked⟩, hsigning⟩ :=
    check_eq_ok.mp h
  obtain ⟨cs, hcs, hperm, huntied⟩ :=
    chains_of_relisted (congrArg Json.truthy hr.base) hr.chains hd hchains
  obtain ⟨_, entries', he, hentries', hmem⟩ := hr.blocked
  obtain rfl := Except.ok.inj (hentries.symm.trans he)
  refine ⟨cs, hperm, huntied, check_eq_ok.mpr ⟨?_, checkAddresses_of_relisted hr.addresses
    haddresses, ?_, hcs, ⟨entries', hentries', ?_⟩, ?_⟩⟩
  · rw [hr.limit, hlimit]
  · rw [hr.validFrom, hr.validTo, hwindow]
  · rw [hblocked, extraBlocks_congr hmem]
  · rw [hr.signing, hsigning]

theorem not_sublist_swap {a b : String} (hcs : cs.Nodup) (hab : [a, b].Sublist cs) :
    ¬ [b, a].Sublist cs := by
  induction cs with
  | nil => cases hab
  | cons c cs ih =>
    obtain ⟨hc, hcs⟩ := List.nodup_cons.mp hcs
    intro hba
    cases hab with
    | cons _ hab =>
      cases hba with
      | cons _ hba => exact ih hcs hab hba
      | cons_cons _ hba => exact hc (hab.mem (by simp))
    | cons_cons _ hab =>
      cases hba with
      | cons _ hba => exact hc (hba.mem (by simp))
      | cons_cons _ hba => exact hc (hab.mem (by simp))

theorem pair_sublist_or {a b : String} (ha : a ∈ cs) (hb : b ∈ cs) (hne : a ≠ b) :
    [a, b].Sublist cs ∨ [b, a].Sublist cs := by
  induction cs with
  | nil => cases ha
  | cons c cs ih =>
    rcases List.mem_cons.mp ha with rfl | ha'
    · have hb' := (List.mem_cons.mp hb).resolve_left hne.symm
      exact Or.inl (.cons_cons _ (List.singleton_sublist.mpr hb'))
    rcases List.mem_cons.mp hb with rfl | hb'
    · exact Or.inr (.cons_cons _ (List.singleton_sublist.mpr ha'))
    · exact (ih ha' hb').imp (.cons _) (.cons _)

theorem chains_of_document {s' : Settings} (h : s.document partner = s'.document partner) :
    s.chains = s'.chains := by
  have hchains : ∀ t : Settings, (t.document partner).scopes.head?.map
      (fun scope => scope.permissions.map (·.chain)) = some t.chains := by
    intro t
    simp [Settings.document, Settings.scopes, Settings.transferScope, Function.comp_def]
  rw [← Option.some.injEq, ← hchains s, h, hchains s']

theorem exists_relisted (hentries : ∃ entries, o.blockedActions.entries = .ok entries)
    (h : o.chosenChains default = .ok vs) (htexts : ∀ v ∈ vs, ∃ s, v = .string s)
    (hp : vs'.Perm vs) : ∃ o' default', o.Relisted o' ∧ default.Relisted default' ∧
      o'.restrictToBase = o.restrictToBase ∧ o'.chosenChains default' = .ok vs' := by
  obtain ⟨entries, hentries⟩ := hentries
  have hset : Json.members vs' = .ok vs' :=
    ((chosenChains_isSet h).of_perm hp.symm).members_eq
  obtain ⟨us, hus, h⟩ := bind_eq_ok.mp h
  obtain ⟨requested, hrequested, h⟩ := bind_eq_ok.mp h
  split at h <;> rename_i hnone
  · obtain ⟨ds, hds, hvs⟩ := bind_eq_ok.mp h
    refine ⟨o, .array vs', ⟨rfl, rfl, rfl, rfl, rfl, .refl _, .refl _,
      ⟨entries, entries, hentries, hentries, fun _ => .rfl⟩⟩, .of_array hds fun u => ?_, rfl, ?_⟩
    · rw [hp.mem_iff, mem_members hvs htexts]
    · simp only [chosenChains, hus, hrequested, ok_bind, if_pos hnone, Json.parts, hset]
  · obtain rfl := Except.ok.inj h
    have hne : us ≠ [] := by
      rintro rfl
      obtain rfl := Except.ok.inj hrequested
      exact hnone rfl
    refine ⟨{ o with allowedChains := .array vs' }, default, ⟨rfl, rfl, rfl, rfl, rfl,
      .of_array (Json.parts_of_partsIfAny hus hne) fun u => ?_, .refl _,
      ⟨entries, entries, hentries, hentries, fun _ => .rfl⟩⟩, .refl _, rfl, ?_⟩
    · rw [hp.mem_iff, mem_members hrequested htexts]
    · simp only [chosenChains, Json.partsIfAny_array, hset, ok_bind, hp.isEmpty_eq, if_neg hnone]

/-- Tied chains can be named in the opposite order, and then they are listed so. -/
theorem exists_swapped (h : o.check default = .ok s) {a b : String}
    (hab : [a, b].Sublist s.chains) (htied : Chain.Tied a b) :
    ∃ o' default' cs, o.Relisted o' ∧ default.Relisted default' ∧
      o'.check default' = .ok { s with chains := cs } ∧ [b, a].Sublist cs := by
  obtain ⟨_, _, _, hchains, ⟨entries, hentries, _⟩, _⟩ := check_eq_ok.mp h
  have ha : a ∈ s.chains := hab.mem (by simp)
  have hb : b ∈ s.chains := hab.mem (by simp)
  obtain ⟨_, hids⟩ := chains_nodup hchains
  rcases chains_eq_ok.mp hchains with ⟨_, hbase⟩ | ⟨hbase, vs, hvs, ids, hcheck, hlisted⟩
  · obtain rfl : a = Chain.base.id := by simpa [hbase] using ha
    exact absurd (by decide) htied.1
  obtain ⟨hall, rfl⟩ := checkChains_eq_ok.mp hcheck
  have htexts := texts_of_ids hall
  have hperm := Chain.perm_of_listed hlisted
  -- The chains are named in the opposite of the order in which they were listed.
  have hnamed : (s.chains.reverse.map Json.string).Perm vs := by
    have hp := ((List.reverse_perm s.chains).trans hperm).map Json.string
    rwa [Json.map_string_texts htexts] at hp
  obtain ⟨o', default', hr, hd, hsame, hvs'⟩ :=
    exists_relisted ⟨entries, hentries⟩ hvs htexts hnamed
  obtain ⟨cs, _, _, hcheck'⟩ := hr.check hd h
  refine ⟨o', default', cs, hr, hd, hcheck', ?_⟩
  obtain ⟨_, _, _, hchains', _⟩ := check_eq_ok.mp hcheck'
  rcases chains_eq_ok.mp hchains' with ⟨hb', _⟩ | ⟨_, ws, hws, ids, hcheck, hlisted'⟩
  · simp [hsame, hbase] at hb'
  obtain rfl := Except.ok.inj (hvs'.symm.trans hws)
  obtain ⟨_, rfl⟩ := checkChains_eq_ok.mp hcheck
  have hback : (s.chains.reverse.map Json.string).filterMap Json.text? = s.chains.reverse := by
    simp [List.filterMap_map, Function.comp_def, Json.text?]
  rw [hback] at hlisted'
  obtain ⟨ranked, hranked, _⟩ := Chain.listed_eq_ok.mp hlisted'
  obtain ⟨_, _, hra⟩ := exists_of_mapM hranked (List.mem_reverse.mpr ha)
  obtain ⟨_, _, hrb⟩ := exists_of_mapM hranked (List.mem_reverse.mpr hb)
  obtain ⟨i, hra, _⟩ := bind_eq_ok.mp hra
  obtain ⟨j, hrb, _⟩ := bind_eq_ok.mp hrb
  obtain rfl := (Chain.rank_eq_iff (hids a ha) (hids b hb) hra hrb).mpr (Or.inr htied)
  exact Chain.pair_sublist_listed hlisted' hrb hra hab.reverse

/-- Compiling depends on the named sets alone exactly when no two of the chains are tied. -/
theorem compile_relisted_iff (h : o.check default = .ok s) :
    (∀ o' default', o.Relisted o' → default.Relisted default' →
      o'.compile partner default' = o.compile partner default) ↔
    ∀ a ∈ s.chains, ∀ b ∈ s.chains, Chain.Tied a b → a = b := by
  have hcompile : ∀ {o : Options} {default s}, o.check default = .ok s →
      o.compile partner default = .ok (s.document partner) :=
    fun hs => compile_eq_ok.mpr ⟨_, hs, rfl⟩
  constructor
  · intro hcanonical a ha b hb htied
    by_contra hne
    have hswapped : ∀ a b, [a, b].Sublist s.chains → ¬ Chain.Tied a b := by
      intro a b hab htied
      obtain ⟨o', default', cs, hr, hd, hcheck, hba⟩ := exists_swapped h hab htied
      have hsame := hcanonical o' default' hr hd
      rw [hcompile hcheck, hcompile h] at hsame
      have hcs : cs = s.chains := chains_of_document (Except.ok.inj hsame)
      obtain ⟨_, _, _, hchains, _⟩ := check_eq_ok.mp h
      exact not_sublist_swap (chains_nodup hchains).1 hab (hcs ▸ hba)
    rcases pair_sublist_or ha hb hne with hab | hba
    · exact hswapped a b hab htied
    · exact hswapped b a hba htied.symm
  · intro huntied o' default' hr hd
    obtain ⟨cs, _, hcs, hcheck⟩ := hr.check hd h
    rw [hcompile hcheck, hcompile h, hcs huntied]

def pocketMoneyAgain : Options :=
  { pocketMoney with allowedChains := .ofTexts ["1", "8453", "1"] }

theorem pocketMoney_relisted : pocketMoney.Relisted pocketMoneyAgain where
  limit := rfl
  validFrom := rfl
  validTo := rfl
  base := rfl
  signing := rfl
  chains := .of_array rfl fun u => by simp [or_comm]
  addresses := .refl _
  blocked := ⟨[], [], rfl, rfl, fun _ => .rfl⟩

theorem compile_relisted_pocketMoney :
    pocketMoneyAgain.compile (.string "home") .null = pocketMoney.compile (.string "home") .null :=
  (compile_relisted_iff pocketMoney_check).mpr (by decide +kernel) pocketMoneyAgain .null
    pocketMoney_relisted (.refl _)

def unnamed (a b : String) : Options := { allowedChains := .ofTexts [a, b] }

theorem unnamed_check {a b : String} {i : Nat × Int}
    (hids : checkChains [.string a, .string b] = .ok [a, b]) (ha : Chain.rank a = .ok i)
    (hb : Chain.rank b = .ok i)
    (hset : Json.members [.string a, .string b] = .ok [.string a, .string b]) :
    (unnamed a b).check .null = .ok {
      chains := [a, b]
      usdLimit := none
      addresses := []
      blocked := []
      signing := false
      validFrom := none
      validTo := none } := by
  have hle : Chain.rankLe i i = true := Chain.rankLe_iff.mpr (Or.inr (by simp))
  have hlisted : Chain.listed [a, b] = .ok [a, b] := by
    refine Chain.listed_eq_ok.mpr ⟨[(i, a), (i, b)], ?_, ?_⟩
    · simp [ha, hb, pure, Except.pure]
    · rw [List.mergeSort_of_pairwise (by simp [hle])]
      rfl
  have hchosen : (unnamed a b).chosenChains .null = .ok [.string a, .string b] := by
    simp [chosenChains, unnamed, Json.ofTexts, hset]
  have hchains := chains_eq_ok.mpr (Or.inr ⟨rfl, _, hchosen, _, hids, hlisted⟩)
  exact check_eq_ok.mpr ⟨rfl, rfl, rfl, hchains, ⟨[], rfl, rfl⟩, rfl⟩

/-- Two spellings of one number are listed as they come, so their order decides what is compiled. -/
theorem compile_spellings_ne : (unnamed "2" "02").Relisted (unnamed "02" "2") ∧
    (∃ d, (unnamed "2" "02").compile (.string "home") .null = .ok d) ∧
    (unnamed "02" "2").compile (.string "home") .null ≠
      (unnamed "2" "02").compile (.string "home") .null := by
  have hplain : (unnamed "2" "02").check .null = .ok _ :=
    unnamed_check (gives_iff.mp (by decide +kernel)) (i := (1, 2)) rfl rfl rfl
  have hswapped : (unnamed "02" "2").check .null = .ok _ :=
    unnamed_check (gives_iff.mp (by decide +kernel)) (i := (1, 2)) rfl rfl rfl
  refine ⟨⟨rfl, rfl, rfl, rfl, rfl, .of_array rfl fun u => by simp [or_comm], .refl _,
    ⟨[], [], rfl, rfl, fun _ => .rfl⟩⟩, ⟨_, compile_eq_ok.mpr ⟨_, hplain, rfl⟩⟩, fun hsame => ?_⟩
  rw [compile_eq_ok.mpr ⟨_, hplain, rfl⟩, compile_eq_ok.mpr ⟨_, hswapped, rfl⟩] at hsame
  exact absurd (chains_of_document (Except.ok.inj hsame)) (by decide)

end Options

end Allowance
