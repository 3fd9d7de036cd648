import Allowance.Proofs.Evaluation.Verdict
import Allowance.Proofs.Recased.Evaluation
import Allowance.Proofs.Settings.Compile

/-! # The order of rules

A document is unambiguous when it allows each action on each chain at most once. Then the permission
that decides is found by what it allows and not by its place, so the permissions may stand in any
order and in any scopes. The order of the conditions of a permission decides which of them a denial
names, but not whether there is one, in any document. Compiled documents are unambiguous.
-/

namespace Allowance

open List (Forall₂)

namespace Decision

theorem allowed_iff_code? {decision : Decision} :
    decision.allowed = true ↔ decision.code? = none := by
  cases decision <;> simp [allowed, code?, denial?]

/-- Two decisions are the same, except that a denial may list the allowed chains in another order.
-/
inductive Matches : Decision → Decision → Prop
  | same (decision : Decision) : Matches decision decision
  | relisted (chain : String) {cs cs' : List String} (h : cs.Perm cs') :
      Matches (.deny (.chainNotAllowed chain cs)) (.deny (.chainNotAllowed chain cs'))

namespace Matches

variable {a b : Decision}

theorem of_eq (h : a = b) : a.Matches b := h ▸ .same a

theorem code?_eq (h : a.Matches b) : a.code? = b.code? := by
  cases h with
  | same => rfl
  | relisted => rfl

end Matches

end Decision

def Permission.allows (p : Permission) (chain : String) (action : Action) : Bool :=
  p.covers chain action && p.effect == .allow

theorem Permission.allows_iff {p : Permission} {r : Request} :
    p.allows r.chain r.action = true ↔ p.Rules .allow r := by
  rw [rules_iff, allows, Bool.and_eq_true]

structure Permission.Shuffled (p q : Permission) : Prop where
  effect : q.effect = p.effect
  chain : q.chain = p.chain
  action : q.action = p.action
  conditions : q.conditions.Perm p.conditions

namespace Document

/-- No action is allowed twice on a chain. -/
def Unambiguous (d : Document) : Prop :=
  ∀ chain action, d.permissions.countP (·.allows chain action) ≤ 1

/-- The documents have the same window and the same permissions, in any order and in any scopes. -/
structure Rearranged (d e : Document) : Prop where
  validFrom : e.validFrom = d.validFrom
  validTo : e.validTo = d.validTo
  permissions : e.permissions.Perm d.permissions

/-- The documents are the same but for the order of the conditions in each permission. -/
structure Shuffled (d e : Document) : Prop where
  validFrom : e.validFrom = d.validFrom
  validTo : e.validTo = d.validTo
  permissions : Forall₂ Permission.Shuffled d.permissions e.permissions

variable {d e : Document} {r : Request} {now : Option Number} {A : Permission}

theorem checkWindow_congr (hfrom : e.validFrom = d.validFrom) (hto : e.validTo = d.validTo) :
    e.checkWindow = d.checkWindow := by
  funext t
  rw [checkWindow, checkWindow, hfrom, hto]

theorem Rearranged.of_scopes {scopes : List Scope} (h : scopes.Perm d.scopes) :
    d.Rearranged { d with scopes := scopes } :=
  ⟨rfl, rfl, h.flatMap_right _⟩

theorem Rearranged.of_permissions {scopes : List Scope}
    (h : Forall₂ (fun s t : Scope => t.permissions.Perm s.permissions) d.scopes scopes) :
    d.Rearranged { d with scopes := scopes } := by
  refine ⟨rfl, rfl, ?_⟩
  change (scopes.flatMap (·.permissions)).Perm (d.scopes.flatMap (·.permissions))
  generalize d.scopes = given at h
  induction h with
  | nil => exact .refl _
  | cons hst _ ih =>
    rw [List.flatMap_cons, List.flatMap_cons]
    exact hst.append ih

theorem Rearranged.trans {f : Document} (h : d.Rearranged e) (h' : e.Rearranged f) :
    d.Rearranged f :=
  ⟨h'.validFrom.trans h.validFrom, h'.validTo.trans h.validTo, h'.permissions.trans h.permissions⟩

section Order

theorem Rearranged.mem_iff (h : d.Rearranged e) : A ∈ e.permissions ↔ A ∈ d.permissions :=
  h.permissions.mem_iff

theorem Rearranged.unambiguous (h : d.Rearranged e) (hd : d.Unambiguous) : e.Unambiguous := by
  intro chain action
  rw [h.permissions.countP_eq]
  exact hd chain action

/-- In an unambiguous document there is no need to look for the first permission that allows. -/
theorem Unambiguous.firstAllowing_iff (hd : d.Unambiguous) :
    d.FirstAllowing r A ↔ A ∈ d.permissions ∧ A.Rules .allow r := by
  constructor
  · intro hA
    exact ⟨hA.mem, hA.1⟩
  · rintro ⟨hmem, hrules⟩
    obtain ⟨before, after, hsplit⟩ := List.append_of_mem hmem
    refine ⟨hrules, before, after, hsplit, ?_⟩
    intro p hp hp'
    have hcount := hd r.chain r.action
    have hbefore : 0 < before.countP (·.allows r.chain r.action) :=
      List.countP_pos_iff.mpr ⟨p, hp, Permission.allows_iff.mpr hp'⟩
    rw [hsplit, List.countP_append, List.countP_cons, if_pos (Permission.allows_iff.mpr hrules)]
      at hcount
    omega

theorem nodup_allowedChains (d : Document) : d.allowedChains.Nodup := nodup_firstPlaces _

theorem allowedChains_perm (hon : ∀ chain, e.AllowsOn chain ↔ d.AllowsOn chain) :
    e.allowedChains.Perm d.allowedChains := by
  rw [List.perm_ext_iff_of_nodup e.nodup_allowedChains d.nodup_allowedChains]
  intro chain
  rw [mem_allowedChains, mem_allowedChains, hon]

/-- A decision is found from who denies, who comes first to allow, and which chains are allowed for
anything. -/
theorem decide_matches (hdenies : e.Denies r ↔ d.Denies r)
    (hfirst : ∀ A, e.FirstAllowing r A ↔ d.FirstAllowing r A)
    (hon : ∀ chain, e.AllowsOn chain ↔ d.AllowsOn chain) :
    (e.decide r).Matches (d.decide r) := by
  by_cases hdeny : d.Denies r
  · rw [decide_of_denies hdeny, decide_of_denies (hdenies.mpr hdeny)]
    exact .same _
  have hdeny' := hdenies.not.mpr hdeny
  by_cases hallow : d.Allows r
  · obtain ⟨A, hA⟩ := exists_firstAllowing.mp hallow
    apply Decision.Matches.of_eq
    apply Decision.eq_of_denial?
    rw [decide_of_firstAllowing hdeny hA, decide_of_firstAllowing hdeny' ((hfirst A).mpr hA)]
  · have hallow' : ¬ e.Allows r := by simpa only [exists_firstAllowing, hfirst] using hallow
    by_cases hchain : d.AllowsOn r.chain
    · rw [(decide_of_not_allows hdeny hallow).1 hchain,
        (decide_of_not_allows hdeny' hallow').1 ((hon r.chain).mpr hchain)]
      exact .same _
    · rw [(decide_of_not_allows hdeny hallow).2 hchain,
        (decide_of_not_allows hdeny' hallow').2 ((hon r.chain).not.mpr hchain)]
      exact .relisted r.chain (allowedChains_perm hon)

theorem Rearranged.evaluate_matches (h : d.Rearranged e) (hd : d.Unambiguous) (r : Request)
    (now : Option Number) : (e.evaluate r now).Matches (d.evaluate r now) := by
  have hdecide : (e.decide r).Matches (d.decide r) := by
    apply decide_matches
    · simp only [Denies, h.mem_iff]
    · intro A
      rw [(h.unambiguous hd).firstAllowing_iff, hd.firstAllowing_iff, h.mem_iff]
    · intro chain
      simp only [AllowsOn, h.mem_iff]
  rw [evaluate, evaluate, checkWindow_congr h.validFrom h.validTo]
  cases now.bind d.checkWindow with
  | some cause => exact .same _
  | none => exact hdecide

end Order

section Conditions

theorem Shuffled.symm (h : d.Shuffled e) : e.Shuffled d := by
  refine ⟨h.validFrom.symm, h.validTo.symm, ?_⟩
  refine h.permissions.flip.imp ?_
  intro p q hpq
  exact ⟨hpq.effect.symm, hpq.chain.symm, hpq.action.symm, hpq.conditions.symm⟩

theorem Shuffled.matching (h : d.Shuffled e) (r : Request) :
    Forall₂ Permission.Shuffled (d.matching r) (e.matching r) := by
  refine List.rel_filter ?_ h.permissions
  intro p q hpq
  simp only [Permission.covers, hpq.chain, hpq.action]

theorem Shuffled.denies (h : d.Shuffled e) (hdeny : d.Denies r) : e.Denies r := by
  rw [← any_deny_iff] at hdeny ⊢
  have heffects := map_eq_of_forall₂ (h.matching r) fun _ _ hpq => hpq.effect.symm
  simpa [List.any_map, Function.comp_def, hdeny] using congrArg (List.any · (· == .deny)) heffects

theorem Shuffled.decide_allowed (h : d.Shuffled e) (hallowed : (d.decide r).allowed = true) :
    (e.decide r).allowed = true := by
  rw [decide_allowed_iff_first] at hallowed ⊢
  obtain ⟨hdeny, A, hA, hchecks⟩ := hallowed
  refine ⟨mt h.symm.denies hdeny, ?_⟩
  have hfind := find?_of_forall₂ (p := (·.effect == .allow)) (q := (·.effect == .allow))
    (h.matching r) fun _ _ hpq => by rw [hpq.effect]
  rw [find?_allow_eq_some.mpr hA] at hfind
  generalize hB : (e.matching r).find? _ = found at hfind
  cases hfind with
  | @some A B hAB =>
    refine ⟨B, find?_allow_eq_some.mp hB, ?_⟩
    intro c hc
    exact hchecks c (hAB.conditions.mem_iff.mp hc)

theorem Shuffled.allowed_evaluate (h : d.Shuffled e) :
    (e.evaluate r now).allowed = (d.evaluate r now).allowed := by
  rw [Bool.eq_iff_iff, evaluate_allowed_iff, evaluate_allowed_iff,
    checkWindow_congr h.validFrom h.validTo]
  exact and_congr_right fun _ => ⟨h.symm.decide_allowed, h.decide_allowed⟩

end Conditions

end Document

namespace Settings

variable {s : Settings} {chain : String} {action : Action}

theorem countP_allows {a : Action} {conditions : List Condition} (h : s.chains.Nodup) :
    (s.chains.map fun chain => Permission.mk .allow chain a conditions).countP
      (·.allows chain action) ≤ if a = action then 1 else 0 := by
  rw [List.countP_map]
  split
  · rename_i hallow
    obtain rfl := hallow
    have hcount := List.nodup_iff_count_le_one.mp h chain
    refine le_trans (List.countP_mono_left fun id _ hid => ?_) hcount
    simpa [Permission.allows, Permission.covers] using hid
  · rename_i hother
    rw [Nat.le_zero, List.countP_eq_zero]
    intro id _ hid
    apply hother
    simp [Permission.allows, Permission.covers] at hid
    exact hid.2

theorem countP_allows_deny {entry : ScopeEntry} {actions : List Action} :
    (s.scopeOf entry .deny actions).permissions.countP (·.allows chain action) = 0 := by
  rw [List.countP_eq_zero]
  intro p hp
  simp [Permission.allows, (mem_scopeOf.mp hp).2.1]

/-- Transfers are allowed by one scope and signatures by another, if at all. -/
theorem unambiguous (h : s.chains.Nodup) (partner : Json) : (s.document partner).Unambiguous := by
  intro chain action
  have htransfer : s.transferScope.permissions.countP (·.allows chain action) ≤
      if .transfer = action then 1 else 0 := countP_allows h
  have hsign : (s.scopeOf .signMessages .allow [.signMessage]).permissions.countP
      (·.allows chain action) ≤ if .signMessage = action then 1 else 0 := by
    simpa [scopeOf] using countP_allows h
  have hboth : (if Action.transfer = action then 1 else 0) +
      (if Action.signMessage = action then 1 else 0) ≤ 1 := by
    cases action <;> decide
  have hblocked : ((if s.blocked.isEmpty then [] else [s.scopeOf .blocked .deny s.blocked]).flatMap
      (·.permissions)).countP (·.allows chain action) = 0 := by
    split <;> simp [countP_allows_deny]
  have hsigning : ((if s.signing then [s.scopeOf .signMessages .allow [.signMessage]]
      else []).flatMap (·.permissions)).countP (·.allows chain action) ≤
      if .signMessage = action then 1 else 0 := by
    split
    · simpa using hsign
    · simp
  simp only [Document.permissions, document, scopes, List.flatMap_append, List.flatMap_cons,
    List.flatMap_nil, List.append_nil, List.countP_append, countP_allows_deny, hblocked]
  omega

end Settings

namespace Document

/-- The permissions of an unambiguous document can be put in any order and any scopes, and it
decides every request at every time alike, with the same code. The conditions of a permission can be
put in any order, and the document allows the same. What is compiled from options is unambiguous. -/
theorem evaluate_rearranged :
    (∀ d e : Document, d.Unambiguous → d.Rearranged e → ∀ r now,
      (e.evaluate r now).allowed = (d.evaluate r now).allowed ∧
        (e.evaluate r now).code? = (d.evaluate r now).code?) ∧
    (∀ d e : Document, d.Shuffled e → ∀ r now,
      (e.evaluate r now).allowed = (d.evaluate r now).allowed) ∧
    ∀ (o : Options) (partner defaultChains : Json) (d : Document),
      o.compile partner defaultChains = .ok d → d.Unambiguous := by
  refine ⟨?_, ?_, ?_⟩
  · intro d e hd h r now
    have hcode : (e.evaluate r now).code? = (d.evaluate r now).code? :=
      (h.evaluate_matches hd r now).code?_eq
    refine ⟨?_, hcode⟩
    rw [Bool.eq_iff_iff, Decision.allowed_iff_code?, Decision.allowed_iff_code?, hcode]
  · intro d e h r now
    exact h.allowed_evaluate
  · intro o partner defaultChains d hd
    obtain ⟨s, hs, rfl⟩ := Options.compile_eq_ok.mp hd
    exact Settings.unambiguous (Options.wellFormed_of_check hs).chains partner

def backwards (d : Document) : Document :=
  { d with scopes := d.scopes.reverse.map fun s => { s with permissions := s.permissions.reverse } }

def crosswise (d : Document) : Document :=
  { d with scopes := d.scopes.map fun s => { s with permissions := s.permissions.map fun p =>
    { p with conditions := p.conditions.reverse } } }

theorem rearranged_backwards (d : Document) : d.Rearranged d.backwards := by
  refine (Rearranged.of_scopes (List.reverse_perm d.scopes)).trans (Rearranged.of_permissions ?_)
  rw [List.forall₂_map_right_iff]
  exact List.forall₂_same.mpr fun s _ => List.reverse_perm s.permissions

theorem shuffled_crosswise (d : Document) : d.Shuffled d.crosswise := by
  refine ⟨rfl, rfl, List.rel_flatMap (R := fun s t : Scope =>
    Forall₂ Permission.Shuffled s.permissions t.permissions) ?_ fun _ _ hst => hst⟩
  rw [crosswise, List.forall₂_map_right_iff, List.forall₂_same]
  intro s _
  rw [List.forall₂_map_right_iff, List.forall₂_same]
  intro p _
  exact ⟨rfl, rfl, rfl, List.reverse_perm p.conditions⟩

theorem evaluate_rearranged_pocketMoney : (∃ d,
    Options.pocketMoney.compile (.string "home") .null = .ok d ∧ d.Unambiguous ∧
      d.Rearranged d.backwards ∧
      (d.backwards.evaluate Options.giftRequest (some 1500)).allowed = true ∧
      (d.backwards.evaluate Options.giftRequest (some 2500)).code? = some "policy_expired") ∧
    pocketMoney.Shuffled pocketMoney.crosswise ∧
      (pocketMoney.crosswise.evaluate toffeeRequest (some 1000)).allowed = false := by
  have hcompile : Options.pocketMoney.compile (.string "home") .null = .ok _ :=
    Options.compile_eq_ok.mpr ⟨_, Options.pocketMoney_check, rfl⟩
  have hd := evaluate_rearranged.2.2 _ _ _ _ hcompile
  have hback := evaluate_rearranged.1 _ _ hd (rearranged_backwards _) Options.giftRequest
  have hcross := evaluate_rearranged.2.1 _ _ (shuffled_crosswise pocketMoney) toffeeRequest
  refine ⟨⟨_, hcompile, hd, rearranged_backwards _, ?_, ?_⟩, shuffled_crosswise _, ?_⟩
  · rw [(hback (some 1500)).1]
    decide +kernel
  · rw [(hback (some 2500)).2]
    decide +kernel
  · rw [hcross (some 1000)]
    decide +kernel

end Document

end Allowance
