import Allowance.Proofs.Settings.Enforcement
import Allowance.Proofs.Settings.Chains

/-! # The order of sets does not matter

Options name sets of chains, addresses and actions. Naming the same sets in another order gives the
same settings, except that chains with the same number may change places.
-/

namespace Allowance

open Checked

namespace Options

variable {o o' : Options} {default : Json} {s : Settings} {us us' : List Json}
  {ss ts : List String}

theorem pairwise_mergeSort (ss : List String) : (ss.mergeSort (· ≤ ·)).Pairwise (· ≤ ·) := by
  have h : (ss.mergeSort (· ≤ ·)).Pairwise fun a b => decide (a ≤ b) = true := by
    refine List.pairwise_mergeSort (fun a b c hab hbc => ?_) (fun a b => ?_) ss
    · simp only [decide_eq_true_eq] at hab hbc ⊢
      exact String.le_trans hab hbc
    · simpa using String.le_total a b
  simpa using h

theorem sortedTexts_of_perm (hp : ss.Perm ts) : sortedTexts ss = sortedTexts ts := by
  have hsorted : (ss.mergeSort (· ≤ ·)).Perm (ts.mergeSort (· ≤ ·)) :=
    ((List.mergeSort_perm ..).trans hp).trans (List.mergeSort_perm ..).symm
  have heq := hsorted.eq_of_pairwise (fun _ _ _ _ => String.le_antisymm) (pairwise_mergeSort ss)
    (pairwise_mergeSort ts)
  rw [sortedTexts, sortedTexts, heq]

theorem checkAddresses_of_perm {keys : List String} (hp : us.Perm us')
    (h : checkAddresses (.array us) = .ok keys) : checkAddresses (.array us') = .ok keys := by
  obtain ⟨hnull, _⟩ | ⟨parts, found, hparts, hfound, rfl⟩ := checkAddresses_eq_ok h
  · cases hnull
  · obtain rfl : us = parts := by simpa [Json.parts] using hparts
    obtain ⟨found', hfound', hperm⟩ := mapM_of_perm hp hfound
    simp [checkAddresses, Json.parts, hfound', sortedTexts_of_perm hperm]

theorem extraBlocks_congr {entries entries' : List BlockedEntry}
    (h : ∀ a, .action a ∈ entries' ↔ .action a ∈ entries) :
    extraBlocks entries' = extraBlocks entries := by
  have hholds : ∀ a, BlockedEntry.holds entries' a = BlockedEntry.holds entries a := fun a => by
    rw [Bool.eq_iff_iff, BlockedEntry.holds_iff, BlockedEntry.holds_iff, h a]
  simp only [extraBlocks, hholds]

/-- The second options ask for the same as the first, with every set in some order. -/
structure Reordered (o o' : Options) : Prop where
  limit : o'.usdLimit = o.usdLimit
  validFrom : o'.validFrom = o.validFrom
  validTo : o'.validTo = o.validTo
  base : o'.restrictToBase.truthy = o.restrictToBase.truthy
  signing : o'.allowSignMessages.truthy = o.allowSignMessages.truthy
  chains : ∃ us us', o.allowedChains = .array us ∧ o'.allowedChains = .array us' ∧
    Json.IsSet us ∧ us.Perm us'
  addresses : o.allowedAddresses = .null ∧ o'.allowedAddresses = .null ∨
    ∃ us us', o.allowedAddresses = .array us ∧ o'.allowedAddresses = .array us' ∧ us.Perm us'
  blocked : ∃ entries entries', o.blockedActions.entries = .ok entries ∧
    o'.blockedActions.entries = .ok entries' ∧ ∀ a, .action a ∈ entries' ↔ .action a ∈ entries

theorem Reordered.check (hr : o.Reordered o') (h : o.check default = .ok s) :
    ∃ cs, cs.Perm s.chains ∧ o'.check default = .ok { s with chains := cs } := by
  obtain ⟨hlimit, haddresses, hwindow, hchains, ⟨entries, hentries, hblocked⟩, hsigning⟩ :=
    check_eq_ok.mp h
  obtain ⟨us, us', ho, ho', hset, hp⟩ := hr.chains
  obtain ⟨cs, hcs, hperm⟩ := chains_of_perm hr.base ho ho' hset hp hchains
  obtain ⟨_, entries', he, hentries', hmem⟩ := hr.blocked
  obtain rfl : _ = entries := by simpa [hentries] using he.symm
  have haddresses' : checkAddresses o'.allowedAddresses = .ok s.addresses := by
    rcases hr.addresses with ⟨ho, ho'⟩ | ⟨as, as', ho, ho', hp⟩
    · rwa [ho', ← ho]
    · rw [ho']
      exact checkAddresses_of_perm hp (ho ▸ haddresses)
  refine ⟨cs, hperm, check_eq_ok.mpr ⟨?_, haddresses', ?_, hcs, ⟨entries', hentries', ?_⟩, ?_⟩⟩
  · rw [hr.limit, hlimit]
  · rw [hr.validFrom, hr.validTo, hwindow]
  · rw [hblocked, extraBlocks_congr hmem]
  · rw [hr.signing, hsigning]

end Options

end Allowance
