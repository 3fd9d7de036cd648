import Allowance.Proofs.Document.Text
import Allowance.Proofs.Evaluation.Condition
import Allowance.Proofs.Settings.Enforcement

/-! # Verdicts

What a document says about a request, told without the order in which permissions are looked at: a
window that is not open denies, a permission to deny beats every permission to allow, the first
permission to allow speaks through its conditions, and what none covers is denied, with one code if
the chain is allowed for something and another if it is not. Every document that reading accepts
gives exactly this verdict on every request that reading accepts.
-/

namespace Allowance

def Decision.code? (decision : Decision) : Option String := decision.denial?.map Denial.code

theorem Decision.allowed_iff {decision : Decision} :
    decision.allowed = true ↔ decision.denial? = none := by
  cases decision <;> simp [allowed, denial?]

theorem Decision.eq_of_denial? {a b : Decision} (h : a.denial? = b.denial?) : a = b := by
  cases a <;> cases b <;> simp_all [denial?]

namespace Denial

theorem code_ne_empty (cause : Denial) : cause.code ≠ "" := by
  cases cause <;> simp [code]

theorem append_ne_empty {s t : String} (h : s ≠ "") : s ++ t ≠ "" :=
  fun he => h (String.append_eq_empty_iff.mp he).1

theorem reason_ne_empty (cause : Denial) : cause.reason ≠ "" := by
  cases cause with
  | notYetValid | expired | noPolicy | inactive => decide
  | addressNotListed role | addressListed role | otherAddress role => cases role <;> decide
  | _ =>
    repeat' (apply append_ne_empty)
    all_goals decide

end Denial

namespace Permission

variable {p : Permission} {r : Request}

def Rules (p : Permission) (effect : Effect) (r : Request) : Prop :=
  p.effect = effect ∧ p.chain = r.chain ∧ p.action = r.action

theorem rules_iff {effect : Effect} :
    p.Rules effect r ↔ p.covers r.chain r.action = true ∧ (p.effect == effect) = true := by
  simp [Rules, covers, and_comm]

end Permission

section FirstPlaces

variable {kept ss : List String} {s t : String}

/-- The elements that a list keeps of those that come next: the ones that it does not have yet. -/
def keepNew (kept : List String) (s : String) : List String :=
  if kept.contains s then kept else kept ++ [s]

theorem firstPlaces_eq (ss : List String) : firstPlaces ss = ss.foldl keepNew [] := rfl

theorem mem_keepNew : s ∈ keepNew kept t ↔ s ∈ kept ∨ s = t := by
  unfold keepNew
  split
  next ht =>
    rw [List.contains_iff_mem] at ht
    exact (or_iff_left_of_imp fun hs => hs ▸ ht).symm
  next => simp

theorem nodup_keepNew (h : kept.Nodup) : (keepNew kept s).Nodup := by
  unfold keepNew
  split
  next => exact h
  next hs =>
    rw [List.contains_iff_mem] at hs
    exact h.append (List.nodup_singleton s) (List.disjoint_singleton.mpr hs)

theorem mem_firstPlaces : s ∈ firstPlaces ss ↔ s ∈ ss := by
  have hfold (kept : List String) : s ∈ ss.foldl keepNew kept ↔ s ∈ kept ∨ s ∈ ss := by
    induction ss generalizing kept with
    | nil => simp
    | cons t ss ih => rw [List.foldl_cons, ih, mem_keepNew, List.mem_cons, or_assoc]
  exact (hfold []).trans (by simp)

theorem nodup_firstPlaces (ss : List String) : (firstPlaces ss).Nodup := by
  have hfold (kept : List String) (h : kept.Nodup) : (ss.foldl keepNew kept).Nodup := by
    induction ss generalizing kept with
    | nil => exact h
    | cons s ss ih => exact ih (keepNew kept s) (nodup_keepNew h)
  exact hfold [] List.nodup_nil

end FirstPlaces

namespace Document

variable {d : Document} {r : Request} {now : Option Number} {A : Permission}

def Early (d : Document) (now : Option Number) : Prop :=
  ∃ t start, now = some t ∧ d.validFrom = some start ∧ t.Below start

def Late (d : Document) (now : Option Number) : Prop :=
  ∃ t stop, now = some t ∧ d.validTo = some stop ∧ stop.Below t

def Open (d : Document) (now : Option Number) : Prop := ¬ d.Early now ∧ ¬ d.Late now

def Denies (d : Document) (r : Request) : Prop := ∃ p ∈ d.permissions, p.Rules .deny r

def Allows (d : Document) (r : Request) : Prop := ∃ p ∈ d.permissions, p.Rules .allow r

def FirstAllowing (d : Document) (r : Request) (A : Permission) : Prop :=
  A.Rules .allow r ∧ ∃ before after, d.permissions = before ++ A :: after ∧
    ∀ p ∈ before, ¬ p.Rules .allow r

def AllowsOn (d : Document) (chain : String) : Prop :=
  ∃ p ∈ d.permissions, p.effect = .allow ∧ p.chain = chain

/-- What a document says about a request: nothing against it, or the code of the denial. -/
inductive Verdict (d : Document) (r : Request) (now : Option Number) : Option String → Prop
  | notYetValid (h : d.Early now) : Verdict d r now (some "policy_not_yet_valid")
  | expired (h : ¬ d.Early now) (hlate : d.Late now) : Verdict d r now (some "policy_expired")
  | denied (h : d.Open now) (hdeny : d.Denies r) : Verdict d r now (some "action_denied")
  | allowed (h : d.Open now) (hdeny : ¬ d.Denies r) (A : Permission) (hA : d.FirstAllowing r A)
      (hall : ∀ c ∈ A.conditions, c.Admits r) : Verdict d r now none
  | failed (h : d.Open now) (hdeny : ¬ d.Denies r) (A : Permission) (hA : d.FirstAllowing r A)
      (before after : List Condition) (c : Condition) (hsplit : A.conditions = before ++ c :: after)
      (hbefore : ∀ b ∈ before, b.Admits r) (hc : ¬ c.Admits r) : Verdict d r now (some c.code)
  | chainNotAllowed (h : d.Open now) (hdeny : ¬ d.Denies r) (hnone : ¬ d.Allows r)
      (hchain : ¬ d.AllowsOn r.chain) : Verdict d r now (some "chain_restriction")
  | noPermission (h : d.Open now) (hdeny : ¬ d.Denies r) (hnone : ¬ d.Allows r)
      (hchain : d.AllowsOn r.chain) : Verdict d r now (some "no_permission")

section Window

theorem early_iff {t : Number} : d.Early (some t) ↔ d.validFrom.any t.lt = true := by
  cases hf : d.validFrom <;> simp [Early, hf, Number.lt_iff]

theorem late_iff {t : Number} : d.Late (some t) ↔ d.validTo.any (·.lt t) = true := by
  cases ht : d.validTo <;> simp [Late, ht, Number.lt_iff]

theorem open_none : d.Open none := by simp [Open, Early, Late]

theorem window_cases (d : Document) (now : Option Number) :
    (d.Early now ∧ now.bind d.checkWindow = some .notYetValid) ∨
      (¬ d.Early now ∧ d.Late now ∧ now.bind d.checkWindow = some .expired) ∨
      (d.Open now ∧ now.bind d.checkWindow = none) := by
  cases now with
  | none => exact Or.inr (Or.inr ⟨open_none, rfl⟩)
  | some t =>
    simp only [Option.bind_some, checkWindow, Open, early_iff, late_iff]
    by_cases hf : d.validFrom.any t.lt = true
    · simp [hf]
    by_cases ht : d.validTo.any (·.lt t) = true
    · simp [hf, ht]
    · simp [hf, ht]

theorem evaluate_of_early (h : d.Early now) : d.evaluate r now = .deny .notYetValid := by
  obtain ⟨-, hw⟩ | ⟨hno, -⟩ | ⟨hno, -⟩ := window_cases d now
  · simp [evaluate, hw]
  · exact absurd h hno
  · exact absurd h hno.1

theorem evaluate_of_late (hno : ¬ d.Early now) (h : d.Late now) :
    d.evaluate r now = .deny .expired := by
  obtain ⟨hearly, -⟩ | ⟨-, -, hw⟩ | ⟨hopen, -⟩ := window_cases d now
  · exact absurd hearly hno
  · simp [evaluate, hw]
  · exact absurd h hopen.2

theorem evaluate_of_open (h : d.Open now) : d.evaluate r now = d.decide r := by
  obtain ⟨hearly, -⟩ | ⟨-, hlate, -⟩ | ⟨-, hw⟩ := window_cases d now
  · exact absurd hearly h.1
  · exact absurd hlate h.2
  · simp [evaluate, hw]

end Window

section Permissions

theorem any_deny_iff : (d.matching r).any (·.effect == .deny) = true ↔ d.Denies r := by
  simp [Denies, Permission.Rules, mem_matching, and_assoc, and_left_comm, and_comm]

theorem find?_allow_eq_some :
    (d.matching r).find? (·.effect == .allow) = some A ↔ d.FirstAllowing r A := by
  rw [matching, List.find?_filter, List.find?_eq_some_iff_append]
  simp only [← Permission.rules_iff, decide_eq_true_eq, Bool.not_eq_true', decide_eq_false_iff_not]
  simp only [FirstAllowing, exists_and_right]

theorem find?_allow_eq_none :
    (d.matching r).find? (·.effect == .allow) = none ↔ ¬ d.Allows r := by
  rw [matching, List.find?_filter, List.find?_eq_none]
  simp only [← Permission.rules_iff, decide_eq_true_eq, Allows, not_exists, not_and]

theorem exists_firstAllowing : d.Allows r ↔ ∃ A, d.FirstAllowing r A := by
  simp only [← find?_allow_eq_some, ← Option.ne_none_iff_exists', Ne, find?_allow_eq_none, not_not]

theorem mem_allowedChains {chain : String} : chain ∈ d.allowedChains ↔ d.AllowsOn chain := by
  rw [allowedChains, mem_firstPlaces]
  simp [AllowsOn, and_assoc]

theorem decide_of_denies (h : d.Denies r) :
    d.decide r = .deny (.actionDenied r.action r.chain) := by
  simp [decide, any_deny_iff.mpr h]

/-- Unless the action is denied, the first failing condition of the first permission decides. -/
theorem decide_of_firstAllowing (hdeny : ¬ d.Denies r) (hA : d.FirstAllowing r A) :
    (d.decide r).denial? = A.conditions.findSome? (·.check r) := by
  have hany := Bool.eq_false_iff.mpr (mt any_deny_iff.mp hdeny)
  cases hc : A.conditions.findSome? (·.check r) <;>
    simp [decide, hany, find?_allow_eq_some.mpr hA, hc, Decision.denial?]

theorem decide_of_not_allows (hdeny : ¬ d.Denies r) (hnone : ¬ d.Allows r) :
    (d.AllowsOn r.chain → d.decide r = .deny (.noPermission r.action r.chain)) ∧
      (¬ d.AllowsOn r.chain → d.decide r = .deny (.chainNotAllowed r.chain d.allowedChains)) := by
  have hany := Bool.eq_false_iff.mpr (mt any_deny_iff.mp hdeny)
  rw [← mem_allowedChains]
  constructor <;> intro hchain <;> simp [decide, hany, find?_allow_eq_none.mpr hnone, hchain]

theorem decide_allowed_iff_first : (d.decide r).allowed = true ↔
    ¬ d.Denies r ∧ ∃ A, d.FirstAllowing r A ∧ ∀ c ∈ A.conditions, c.check r = none := by
  by_cases hdeny : d.Denies r
  · simp [decide_of_denies hdeny, Decision.allowed, hdeny]
  rw [Decision.allowed_iff, and_iff_right hdeny]
  cases hfind : (d.matching r).find? (·.effect == .allow) with
  | none =>
    have hnone (A : Permission) : ¬ d.FirstAllowing r A := by
      simp [← find?_allow_eq_some, hfind]
    have hdenied := Decision.allowed_iff.not.mp
      (Bool.eq_false_iff.mp (decide_allowed_of_none hfind))
    simp [hnone, hdenied]
  | some A =>
    have hA := find?_allow_eq_some.mp hfind
    rw [decide_of_firstAllowing hdeny hA, List.findSome?_eq_none_iff]
    constructor
    · intro hall
      exact ⟨A, hA, hall⟩
    · rintro ⟨B, hB, hall⟩
      obtain rfl : A = B := by simpa [hfind] using find?_allow_eq_some.mpr hB
      exact hall

end Permissions

theorem WellFormed.conditions (h : d.WellFormed) (hA : A ∈ d.permissions) :
    ∀ c ∈ A.conditions, c.WellFormed := by
  obtain ⟨scope, hscope, hA⟩ := List.mem_flatMap.mp hA
  exact ((h.scopes scope hscope).1 A hA).2

theorem FirstAllowing.mem (hA : d.FirstAllowing r A) : A ∈ d.permissions := by
  obtain ⟨-, before, after, hsplit, -⟩ := hA
  simp [hsplit]

section Verdict

variable {verdict : Option String}

/-- The decisions on a request that is no NaN bear out the verdict of a well-formed document. -/
theorem Verdict.code_evaluate (hd : d.WellFormed) (hr : r.valueUsd ≠ some (.double .nan))
    (h : d.Verdict r now verdict) : (d.evaluate r now).code? = verdict := by
  have hadmits {A : Permission} (hA : d.FirstAllowing r A) {c : Condition} (hc : c ∈ A.conditions) :
      c.check r = none ↔ c.Admits r := Condition.check_eq_none (hd.conditions hA.mem c hc) hr
  cases h with
  | notYetValid h => rw [evaluate_of_early h]; rfl
  | expired hno h => rw [evaluate_of_late hno h]; rfl
  | denied h hdeny => rw [evaluate_of_open h, decide_of_denies hdeny]; rfl
  | allowed h hdeny A hA hall =>
    have hfind : A.conditions.findSome? (·.check r) = none :=
      List.findSome?_eq_none_iff.mpr fun c hc => (hadmits hA hc).mpr (hall c hc)
    rw [evaluate_of_open h, Decision.code?, decide_of_firstAllowing hdeny hA, hfind]
    rfl
  | failed h hdeny A hA before after c hsplit hbefore hc =>
    obtain ⟨cause, hcause⟩ := Option.ne_none_iff_exists'.mp
      (mt (hadmits hA (by simp [hsplit])).mp hc)
    have hfind : A.conditions.findSome? (·.check r) = some cause :=
      List.findSome?_eq_some_iff.mpr ⟨before, c, after, hsplit, hcause, fun b hb =>
        (hadmits hA (by simp [hsplit, hb])).mpr (hbefore b hb)⟩
    rw [evaluate_of_open h, Decision.code?, decide_of_firstAllowing hdeny hA, hfind,
      Option.map_some, Condition.code_of_check hcause]
  | chainNotAllowed h hdeny hnone hchain =>
    rw [evaluate_of_open h, (decide_of_not_allows hdeny hnone).2 hchain]; rfl
  | noPermission h hdeny hnone hchain =>
    rw [evaluate_of_open h, (decide_of_not_allows hdeny hnone).1 hchain]; rfl

theorem exists_verdict (d : Document) (r : Request) (now : Option Number) :
    ∃ verdict, d.Verdict r now verdict := by
  classical
  obtain ⟨h, -⟩ | ⟨hno, h, -⟩ | ⟨h, -⟩ := window_cases d now
  · exact ⟨_, .notYetValid h⟩
  · exact ⟨_, .expired hno h⟩
  by_cases hdeny : d.Denies r
  · exact ⟨_, .denied h hdeny⟩
  by_cases hallow : d.Allows r
  · obtain ⟨A, hA⟩ := exists_firstAllowing.mp hallow
    cases hfind : A.conditions.find? fun c => ¬ c.Admits r with
    | none => exact ⟨_, .allowed h hdeny A hA (by simpa using hfind)⟩
    | some c =>
      obtain ⟨hc, before, after, hsplit, hbefore⟩ := List.find?_eq_some_iff_append.mp hfind
      exact ⟨_, .failed h hdeny A hA before after c hsplit (by simpa using hbefore)
        (by simpa using hc)⟩
  · by_cases hchain : d.AllowsOn r.chain
    · exact ⟨_, .noPermission h hdeny hallow hchain⟩
    · exact ⟨_, .chainNotAllowed h hdeny hallow hchain⟩

theorem verdict_iff (hd : d.WellFormed) (hr : r.valueUsd ≠ some (.double .nan)) :
    d.Verdict r now verdict ↔ (d.evaluate r now).code? = verdict := by
  refine ⟨Verdict.code_evaluate hd hr, ?_⟩
  rintro rfl
  obtain ⟨verdict, h⟩ := exists_verdict d r now
  rwa [h.code_evaluate hd hr]

/-- A document that reading accepts decides every request that reading accepts, at every time, and
as its verdict says. A denial has a reason and a code. -/
theorem evaluate_verdict {v w : Json} (hd : ofJson v = .ok d) (hr : Request.ofJson w = .ok r)
    (now : Option Number) : ∃ decision, d.evaluateAt r (.ofNumber? now) = .ok decision ∧
      (∀ verdict, d.Verdict r now verdict ↔ decision.code? = verdict) ∧
      ∀ cause, decision = .deny cause → cause.reason ≠ "" ∧ cause.code ≠ "" := by
  refine ⟨d.evaluate r now, evaluateAt_ofNumber? d r now, fun verdict => ?_, fun cause _ => ?_⟩
  · exact verdict_iff (wellFormed_of_ofJson hd) (Request.valueUsd_ne_nan hr)
  · exact ⟨cause.reason_ne_empty, cause.code_ne_empty⟩

def toffee : Json := .object [
  ("chainId", .int 8453),
  ("type", .string "transfer"),
  ("to", .string "0xDE709F2102306220921060314715629080E2FB77"),
  ("valueUsd", .int 14),
  ("arguments", .ofTexts ["toffee"])]

def toffeeRequest : Request where
  chain := "8453"
  action := .transfer
  recipient := some "0xDE709F2102306220921060314715629080E2FB77"
  valueUsd := some 14
  sender := none
  arguments := some ["toffee"]

theorem pocketMoney_verdict : ofJson pocketMoney.toJson = .ok pocketMoney ∧
    Request.ofJson toffee = .ok toffeeRequest ∧
    ∃ cause, pocketMoney.evaluateAt toffeeRequest (.ofNumber? (some 1000)) = .ok (.deny cause) ∧
      pocketMoney.Verdict toffeeRequest (some 1000) (some "argument_mismatch") ∧
      cause.reason ≠ "" ∧ cause.code = "argument_mismatch" := by
  have hd := ofJson_toJson wellFormed_pocketMoney
  have hr : Request.ofJson toffee = .ok toffeeRequest := Checked.gives_iff.mp (by decide +kernel)
  obtain ⟨decision, hdecision, hverdict, hdeny⟩ := evaluate_verdict hd hr (some 1000)
  have hevaluate := (evaluateAt_ofNumber? _ _ _).symm.trans hdecision
  obtain rfl := Except.ok.inj hevaluate
  have hcode :
      (pocketMoney.evaluate toffeeRequest (some 1000)).code? = some "argument_mismatch" := by
    decide +kernel
  cases hcause : pocketMoney.evaluate toffeeRequest (some 1000) with
  | allow => simp [hcause, Decision.code?, Decision.denial?] at hcode
  | deny cause =>
    refine ⟨hd, hr, cause, hcause ▸ hdecision, (hverdict _).mpr hcode, (hdeny cause hcause).1, ?_⟩
    simpa [hcause, Decision.code?, Decision.denial?] using hcode

end Verdict

end Document

end Allowance
