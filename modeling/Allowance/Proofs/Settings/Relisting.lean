import Allowance.Proofs.Evaluation.Rearrangement
import Allowance.Proofs.Settings.Summary

/-! # Documents with their chains in another order

Settings with their chains in another order compile to a document that decides every request in the
same way. Only the reason for which a chain is denied lists the allowed chains, and lists them as
they stand. Chains that are listed as they are resolved stand in one order, unless two of them are
tied.
-/

namespace Allowance

open Checked

namespace Chain

variable {ids out : List String}

theorem listed_listed (h : listed ids = .ok out) : listed out = .ok out := by
  obtain ⟨ranked, hranked, rfl⟩ := listed_eq_ok.mp h
  refine listed_eq_ok.mpr ⟨_, mapM_map_self fun x hx => ?_, ?_⟩
  · have hx : x ∈ ranked := (List.mergeSort_perm ..).mem_iff.mp hx
    simp [(rank_of_mem_ranked hranked hx).2]
  · rw [List.mergeSort_of_pairwise (pairwise_ranked ranked)]

theorem listed_base : listed [base.id] = .ok [base.id] :=
  listed_eq_ok.mpr ⟨[((0, 0), base.id)], gives_iff.mp (by decide +kernel), by
    rw [List.mergeSort_singleton]
    rfl⟩

end Chain

namespace Options

variable {o : Options} {default : Json} {cs cs' : List String}

theorem listed_of_chains (h : o.chains default = .ok cs) : Chain.listed cs = .ok cs := by
  obtain ⟨-, rfl⟩ | ⟨-, _, -, _, -, hlisted⟩ := chains_eq_ok.mp h
  · exact Chain.listed_base
  · exact Chain.listed_listed hlisted

theorem eq_of_listed (hids : ∀ id ∈ cs, Chain.isId id = true) (huntied : Untied cs)
    (hp : cs.Perm cs') (h : Chain.listed cs = .ok cs) (h' : Chain.listed cs' = .ok cs') :
    cs = cs' := by
  have hlisted := listed_of_untied hids huntied hp h
  exact Except.ok.inj (hlisted.symm.trans h')

end Options

namespace Settings

variable {s : Settings} {cs : List String}

theorem scopeOf_relisted (h : cs.Perm s.chains) (entry : ScopeEntry) (effect : Effect)
    (actions : List Action) :
    (scopeOf { s with chains := cs } entry effect actions).permissions.Perm
      (s.scopeOf entry effect actions).permissions :=
  List.Perm.flatMap_left actions fun _ _ => h.map _

/-- Settings with their chains in another order are told by the same scopes, with the permissions of
each in another order. -/
theorem scopes_relisted (h : cs.Perm s.chains) :
    List.Forall₂ (fun a b : Scope => b.permissions.Perm a.permissions) s.scopes
      (scopes { s with chains := cs }) := by
  have hscope := scopeOf_relisted h
  unfold scopes
  apply List.rel_append
  · apply List.rel_append
    · exact .cons (h.map _) (.cons (hscope ..) (.cons (hscope ..) .nil))
    · change List.Forall₂ _ _ (if s.blocked.isEmpty then _ else _)
      split
      · exact .nil
      · exact .cons (hscope ..) .nil
  · change List.Forall₂ _ _ (if s.signing then _ else _)
    split
    · exact .cons (hscope ..) .nil
    · exact .nil

theorem evaluate_relisted (hnodup : s.chains.Nodup) (h : cs.Perm s.chains) (partner : Json)
    (r : Request) (now : Option Number) :
    ((document { s with chains := cs } partner).evaluate r now).Matches
      ((s.document partner).evaluate r now) :=
  Document.Rearranged.evaluate_matches (Document.Rearranged.of_permissions (scopes_relisted h))
    (unambiguous hnodup partner) r now

end Settings

theorem Options.listed_of_compile {o : Options} {partner default : Json} {d : Document}
    (h : o.compile partner default = .ok d) :
    Chain.listed d.allowedChains = .ok d.allowedChains := by
  obtain ⟨s, hcheck, rfl⟩ := compile_eq_ok.mp h
  obtain ⟨-, -, -, hchains, -⟩ := check_eq_ok.mp hcheck
  rw [Settings.allowedChains_document (chains_nodup hchains).1]
  exact listed_of_chains hchains

end Allowance
