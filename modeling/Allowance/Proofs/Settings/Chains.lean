import Allowance.Proofs.Json.Sets
import Allowance.Proofs.Settings.Check

/-! # The chains that options resolve to

The resolved chains are different chain ids. Which ones they are depends on the members of the set
that is asked for, and not on their order; only the place of two ids with the same number does.
-/

namespace Allowance

open Checked

namespace Chain

variable {ids others out : List String}

theorem listed_eq_ok : listed ids = .ok out ↔
    ∃ ranked, ids.mapM (fun id => do return (← rank id, id)) = .ok ranked ∧
      (ranked.mergeSort fun a b => rankLe a.1 b.1).map (·.2) = out := by
  simp only [listed, listedBy, bind_eq_ok, pure_eq_ok]

theorem map_snd_of_ranked {ranked : List ((Nat × Int) × String)}
    (h : ids.mapM (fun id => do return (← rank id, id)) = .ok ranked) : ranked.map (·.2) = ids := by
  induction ids generalizing ranked with
  | nil => simp [mapM_nil_eq_ok.mp h]
  | cons id ids ih =>
    obtain ⟨r, rs, hr, hrs, rfl⟩ := mapM_cons_eq_ok.mp h
    obtain ⟨place, _, hplace⟩ := bind_eq_ok.mp hr
    obtain rfl := pure_eq_ok.mp hplace
    simp [ih hrs]

theorem perm_of_listed (h : listed ids = .ok out) : out.Perm ids := by
  obtain ⟨ranked, hranked, rfl⟩ := listed_eq_ok.mp h
  have hperm := (List.mergeSort_perm ranked fun a b => rankLe a.1 b.1).map (·.2)
  rwa [map_snd_of_ranked hranked] at hperm

theorem listed_of_perm (hp : ids.Perm others) (h : listed ids = .ok out) :
    ∃ cs, listed others = .ok cs ∧ cs.Perm out := by
  obtain ⟨ranked, hranked, _⟩ := listed_eq_ok.mp h
  obtain ⟨ranked', hranked', _⟩ := mapM_of_perm hp hranked
  have hothers := listed_eq_ok.mpr ⟨ranked', hranked', rfl⟩
  exact ⟨_, hothers, (perm_of_listed hothers).trans (hp.symm.trans (perm_of_listed h).symm)⟩

end Chain

namespace Options

variable {o o' : Options} {default : Json} {us us' vs : List Json} {ids cs : List String}

theorem checkChains_eq_ok : checkChains vs = .ok ids ↔
    (∀ v ∈ vs, Chain.isIdValue v = true) ∧ vs.filterMap Json.text? = ids := by
  have hempty : (vs.filter fun v => !Chain.isIdValue v).isEmpty = true ↔
      ∀ v ∈ vs, Chain.isIdValue v = true := by
    simp [List.isEmpty_iff, List.filter_eq_nil_iff]
  by_cases h : ∀ v ∈ vs, Chain.isIdValue v = true
  · rw [and_iff_right h]
    simp [checkChains, hempty.mpr h, pure_eq_ok]
  · simp [checkChains, mt hempty.mp h, bind_eq_ok, h]

/-- The values from which the chains are taken, where options are not restricted to Base. -/
def chosenChains (o : Options) (default : Json) : Checked (List Json) := do
  let requested ← Json.members (← o.allowedChains.partsIfAny)
  if requested.isEmpty then Json.members (← default.parts) else .ok requested

theorem chains_eq_ok : o.chains default = .ok cs ↔
    o.restrictToBase.truthy = true ∧ cs = [Chain.base.id] ∨
    o.restrictToBase.truthy = false ∧ ∃ vs, o.chosenChains default = .ok vs ∧
      ∃ ids, checkChains vs = .ok ids ∧ Chain.listed ids = .ok cs := by
  by_cases hbase : o.restrictToBase.truthy = true
  · simp [chains, hbase, pure_eq_ok, eq_comm (a := cs)]
  · have hother : o.restrictToBase.truthy = false := by simpa using hbase
    simp only [chains, chosenChains, hother, bind_eq_ok, Bool.false_eq_true, if_false, false_and,
      false_or, true_and]
    constructor
    · rintro ⟨parts, hparts, requested, hrequested, h⟩
      split at h <;> rename_i hempty
      · obtain ⟨named, hnamed, h⟩ := bind_eq_ok.mp h
        obtain ⟨vs, hvs, h⟩ := bind_eq_ok.mp h
        refine ⟨vs, ⟨parts, hparts, requested, hrequested, ?_⟩, bind_eq_ok.mp h⟩
        simp [hempty, hnamed, hvs]
      · refine ⟨requested, ⟨parts, hparts, requested, hrequested, ?_⟩, bind_eq_ok.mp h⟩
        simp [hempty]
    · rintro ⟨vs, ⟨parts, hparts, requested, hrequested, h⟩, hvs⟩
      refine ⟨parts, hparts, requested, hrequested, ?_⟩
      split at h <;> rename_i hempty
      · obtain ⟨named, hnamed, h⟩ := bind_eq_ok.mp h
        simp [hempty, hnamed, h, bind_eq_ok, hvs]
      · obtain rfl : requested = vs := by simpa using h
        simp [hempty, bind_eq_ok, hvs]

theorem chosenChains_isSet (h : o.chosenChains default = .ok vs) : Json.IsSet vs := by
  obtain ⟨parts, _, h⟩ := bind_eq_ok.mp h
  obtain ⟨requested, hrequested, h⟩ := bind_eq_ok.mp h
  split at h
  · obtain ⟨_, _, hmembers⟩ := bind_eq_ok.mp h
    exact Json.isSet_of_members hmembers
  · obtain rfl : requested = vs := by simpa using h
    exact Json.isSet_of_members hrequested

theorem nodup_texts (h : Json.IsSet vs) : (vs.filterMap Json.text?).Nodup := by
  refine List.Pairwise.filterMap _ ?_ h.different
  rintro u v hne s hs t ht rfl
  cases u <;> cases v <;> simp_all [Json.text?, Json.same]

theorem chains_nodup (h : o.chains default = .ok cs) :
    cs.Nodup ∧ ∀ id ∈ cs, Chain.isId id = true := by
  rcases chains_eq_ok.mp h with ⟨_, rfl⟩ | ⟨_, vs, hvs, ids, hids, hlisted⟩
  · decide
  · obtain ⟨hall, rfl⟩ := checkChains_eq_ok.mp hids
    have hperm := Chain.perm_of_listed hlisted
    refine ⟨hperm.nodup_iff.mpr (nodup_texts (chosenChains_isSet hvs)), fun id hid => ?_⟩
    obtain ⟨v, hv, htext⟩ := List.mem_filterMap.mp (hperm.mem_iff.mp hid)
    cases v <;> simp_all [Json.text?]
    exact hall _ hv

theorem chosenChains_of_perm (ho : o.allowedChains = .array us)
    (ho' : o'.allowedChains = .array us') (hset : Json.IsSet us) (hp : us.Perm us')
    (h : o.chosenChains default = .ok vs) :
    ∃ vs', o'.chosenChains default = .ok vs' ∧ vs.Perm vs' := by
  simp only [chosenChains, ho, Json.partsIfAny_array, ok_bind, hset.members_eq] at h
  simp only [chosenChains, ho', Json.partsIfAny_array, ok_bind, (hset.of_perm hp).members_eq]
  by_cases hnone : us.isEmpty = true
  · rw [if_pos hnone] at h
    rw [if_pos (hp.isEmpty_eq ▸ hnone)]
    exact ⟨vs, h, .refl _⟩
  · rw [if_neg hnone] at h
    rw [if_neg (hp.isEmpty_eq ▸ hnone)]
    obtain rfl : us = vs := by simpa using h
    exact ⟨us', rfl, hp⟩

theorem chains_of_perm
    (hbase : o'.restrictToBase.truthy = o.restrictToBase.truthy)
    (ho : o.allowedChains = .array us) (ho' : o'.allowedChains = .array us') (hset : Json.IsSet us)
    (hp : us.Perm us') (h : o.chains default = .ok cs) :
    ∃ cs', o'.chains default = .ok cs' ∧ cs'.Perm cs := by
  rcases chains_eq_ok.mp h with ⟨hb, rfl⟩ | ⟨hb, vs, hvs, ids, hids, hlisted⟩
  · exact ⟨_, chains_eq_ok.mpr (Or.inl ⟨hbase.trans hb, rfl⟩), .refl _⟩
  · obtain ⟨hall, rfl⟩ := checkChains_eq_ok.mp hids
    obtain ⟨vs', hvs', hperm⟩ := chosenChains_of_perm ho ho' hset hp hvs
    have hids' : checkChains vs' = .ok (vs'.filterMap Json.text?) :=
      checkChains_eq_ok.mpr ⟨fun v hv => hall v (hperm.mem_iff.mpr hv), rfl⟩
    obtain ⟨cs', hlisted', hcs⟩ := Chain.listed_of_perm (hperm.filterMap _) hlisted
    exact ⟨cs', chains_eq_ok.mpr (Or.inr ⟨hbase.trans hb, vs', hvs', _, hids', hlisted'⟩), hcs⟩

end Options

end Allowance
