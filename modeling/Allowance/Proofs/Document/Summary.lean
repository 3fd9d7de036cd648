import Allowance.Document.Summary
import Allowance.Proofs.Evaluation.Verdict

/-! # What a summary tells

A summary is read off the permissions of a document one by one, and the decision on a request off
the first that applies. The two agree as far as a summary goes: a request that is allowed is on a
chain that the summary lists, an action that is denied is one that the summary lists as denied, and
no transfer fails a limit that the smallest limit of the summary keeps it below.
-/

namespace Allowance

namespace Number

variable {a b c : Number}

def smaller (a b : Number) : Number := if b.lt a then b else a

theorem smaller_eq (a b : Number) : smaller a b = a ∨ smaller a b = b := by
  unfold smaller
  split
  · exact Or.inr rfl
  · exact Or.inl rfl

theorem not_below_self : ¬ a.Below a := by
  rintro ⟨x, y, hx, hy, hlt⟩
  obtain rfl : x = y := Option.some.inj (hx.symm.trans hy)
  exact lt_irrefl x hlt

theorem Below.asymm (h : a.Below b) : ¬ b.Below a := by
  obtain ⟨x, y, hx, hy, hlt⟩ := h
  rintro ⟨y', x', hy', hx', hlt'⟩
  obtain rfl : x = x' := Option.some.inj (hx.symm.trans hx')
  obtain rfl : y = y' := Option.some.inj (hy.symm.trans hy')
  exact lt_asymm hlt hlt'

theorem Below.trans_not_below (h : a.Below b) (hc : c ≠ .double .nan) (hcb : ¬ c.Below b) :
    a.Below c := by
  obtain ⟨x, y, hx, hy, hlt⟩ := h
  obtain rfl | ⟨_, z, _, hz, _⟩ := c.stands
  · exact absurd rfl hc
  · have hle : y ≤ z := not_lt.mp fun hzy => hcb ⟨z, y, hz, hy, hzy⟩
    exact ⟨x, z, hx, hz, hlt.trans_le hle⟩

theorem not_below_smaller (a b : Number) : ¬ a.Below (smaller a b) ∧ ¬ b.Below (smaller a b) := by
  unfold smaller
  split
  next hlt => exact ⟨(lt_iff.mp hlt).asymm, not_below_self⟩
  next hlt => exact ⟨not_below_self, mt lt_iff.mpr hlt⟩

end Number

section Smallest

open Number (smaller)

variable {m n : Number} {ns : List Number}

theorem smallest?_eq_none : smallest? ns = none ↔ ns = [] := by
  cases ns <;> simp [smallest?]

theorem foldl_smaller_mem (n : Number) (ns : List Number) : ns.foldl smaller n ∈ n :: ns := by
  induction ns generalizing n with
  | nil => exact List.mem_singleton_self n
  | cons m ns ih =>
    rw [List.foldl_cons]
    have hmem := ih (smaller n m)
    obtain hs | hs := Number.smaller_eq n m
    · rw [hs] at hmem ⊢
      exact List.cons_subset_cons n (List.subset_cons_self m ns) hmem
    · rw [hs] at hmem ⊢
      exact List.mem_cons_of_mem n hmem

/-- Nothing that the fold has seen is below what it keeps. -/
theorem not_below_foldl (n : Number) (ns : List Number) (hnan : ∀ a ∈ n :: ns, a ≠ .double .nan) :
    ∀ a ∈ n :: ns, ¬ a.Below (ns.foldl smaller n) := by
  induction ns generalizing n with
  | nil =>
    intro a ha
    obtain rfl := List.mem_singleton.mp ha
    exact Number.not_below_self
  | cons m ns ih =>
    rw [List.foldl_cons]
    have hkept : smaller n m ≠ .double .nan := by
      obtain hs | hs := Number.smaller_eq n m
      · rw [hs]
        exact hnan n (by simp)
      · rw [hs]
        exact hnan m (by simp)
    have hrest := ih (smaller n m) fun a ha => by
      obtain rfl | ha := List.mem_cons.mp ha
      · exact hkept
      · exact hnan a (by simp [ha])
    have hout := hrest (smaller n m) (by simp)
    obtain ⟨hn, hm⟩ := Number.not_below_smaller n m
    intro a ha hbelow
    obtain rfl | rfl | ha : a = n ∨ a = m ∨ a ∈ ns := by simpa using ha
    · exact hn (hbelow.trans_not_below hkept hout)
    · exact hm (hbelow.trans_not_below hkept hout)
    · exact hrest a (by simp [ha]) hbelow

theorem mem_of_smallest? (h : smallest? ns = some m) : m ∈ ns := by
  cases ns with
  | nil => simp [smallest?] at h
  | cons n ns =>
    obtain rfl := Option.some.inj h
    exact foldl_smaller_mem n ns

theorem not_below_smallest? (hnan : ∀ a ∈ ns, a ≠ .double .nan) (h : smallest? ns = some m)
    (hn : n ∈ ns) : ¬ n.Below m := by
  cases ns with
  | nil => simp at hn
  | cons first rest =>
    obtain rfl := Option.some.inj h
    exact not_below_foldl first rest hnan n hn

end Smallest

namespace Test

variable {t : Test}

theorem valueCode_eq_limit (h : t.valueCode = "value_limit") : ∃ n, t = .lessThan n := by
  cases t with
  | lessThan n => exact ⟨n, rfl⟩
  | equalsText s =>
    simp only [valueCode] at h
    split at h <;> simp at h
  | _ => simp [valueCode] at h

theorem addressCode_ne_limit (t : Test) : t.addressCode ≠ "value_limit" := by
  cases t <;> simp [addressCode]

end Test

namespace Condition

variable {c : Condition} {r : Request} {cause : Denial} {n : Number}

theorem code_eq_limit (h : c.code = "value_limit") : ∃ n, c = ⟨.value, .lessThan n⟩ := by
  obtain ⟨resource, test⟩ := c
  cases resource with
  | value =>
    obtain ⟨n, rfl⟩ := Test.valueCode_eq_limit h
    exact ⟨n, rfl⟩
  | argument spelling index => simp [code] at h
  | _ => exact absurd h test.addressCode_ne_limit

theorem code_ne (c : Condition) : c.code ≠ "action_denied" ∧ c.code ≠ "chain_restriction" := by
  obtain ⟨resource, test⟩ := c
  cases resource with
  | argument spelling index => simp [code]
  | value =>
    cases test with
    | equalsText s =>
      simp only [code, Test.valueCode]
      split <;> simp
    | _ => simp [code, Test.valueCode]
  | _ => cases test <;> simp [code, Test.addressCode]

theorem limit?_wellFormed (hc : c.WellFormed) (h : c.limit? = some n) :
    n.isFinite? = some true := by
  obtain ⟨resource, test⟩ := c
  cases resource <;> cases test <;> simp only [limit?, reduceCtorEq, Option.some.injEq] at h
  all_goals exact h ▸ hc.2

end Condition

namespace Document

variable {d : Document} {r : Request} {now : Option Number} {cause : Denial}

/-- The causes for which a document can deny a request: its window, a permission to deny, a
condition of the first permission to allow, or the lack of one. -/
inductive Cause (d : Document) (r : Request) (now : Option Number) : Denial → Prop
  | notYetValid (h : d.Early now) : Cause d r now .notYetValid
  | expired (h : d.Late now) : Cause d r now .expired
  | action (h : d.Denies r) : Cause d r now (.actionDenied r.action r.chain)
  | condition (A : Permission) (hA : d.FirstAllowing r A) (c : Condition) (hc : c ∈ A.conditions)
      (cause : Denial) (hcause : c.check r = some cause) : Cause d r now cause
  | chain (h : ¬ d.AllowsOn r.chain) : Cause d r now (.chainNotAllowed r.chain d.allowedChains)
  | noPermission (h : d.AllowsOn r.chain) : Cause d r now (.noPermission r.action r.chain)

theorem cause_of_evaluate (h : d.evaluate r now = .deny cause) : d.Cause r now cause := by
  have hcause {given : Denial} (he : d.evaluate r now = .deny given) : given = cause :=
    Decision.deny.inj (he.symm.trans h)
  obtain ⟨hw, -⟩ | ⟨hno, hw, -⟩ | ⟨hw, -⟩ := window_cases d now
  · exact hcause (evaluate_of_early hw) ▸ .notYetValid hw
  · exact hcause (evaluate_of_late hno hw) ▸ .expired hw
  rw [evaluate_of_open hw] at h hcause
  by_cases hdeny : d.Denies r
  · exact hcause (decide_of_denies hdeny) ▸ .action hdeny
  by_cases hallow : d.Allows r
  · obtain ⟨A, hA⟩ := exists_firstAllowing.mp hallow
    have hfind := decide_of_firstAllowing hdeny hA
    rw [h, Decision.denial?] at hfind
    obtain ⟨c, hc, hcheck⟩ := List.exists_of_findSome?_eq_some hfind.symm
    exact .condition A hA c hc cause hcheck
  · by_cases hchain : d.AllowsOn r.chain
    · exact hcause ((decide_of_not_allows hdeny hallow).1 hchain) ▸ .noPermission hchain
    · exact hcause ((decide_of_not_allows hdeny hallow).2 hchain) ▸ .chain hchain

theorem cause_of_code? {code : String} (h : (d.evaluate r now).code? = some code) :
    ∃ cause, d.Cause r now cause ∧ cause.code = code := by
  cases he : d.evaluate r now with
  | allow => simp [he, Decision.code?, Decision.denial?] at h
  | deny cause =>
    rw [he] at h
    exact ⟨cause, cause_of_evaluate he, Option.some.inj h⟩

theorem denies_iff {a : Action} :
    d.denies a = true ↔ ∃ p ∈ d.permissions, p.effect = .deny ∧ p.action = a := by
  simp [denies]

theorem mem_transferConditions {c : Condition} : c ∈ d.transferConditions ↔
    ∃ p ∈ d.permissions, (p.effect = .allow ∧ p.action = .transfer) ∧ c ∈ p.conditions := by
  simp [transferConditions, and_assoc]

def limits (d : Document) : List Number := d.transferConditions.filterMap (·.limit?)

theorem usdLimit_eq : d.usdLimit = smallest? d.limits := rfl

theorem WellFormed.limits_ne_nan (h : d.WellFormed) : ∀ n ∈ d.limits, n ≠ .double .nan := by
  intro n hn
  obtain ⟨c, hc, hlimit⟩ := List.mem_filterMap.mp hn
  obtain ⟨p, hp, -, hc⟩ := mem_transferConditions.mp hc
  exact Condition.ne_nan_of_isFinite
    (Condition.limit?_wellFormed (h.conditions hp c hc) hlimit)

theorem chain_mem_of_allowed (h : (d.evaluate r now).allowed = true) :
    r.chain ∈ d.allowedChains := by
  obtain ⟨-, A, hA, -⟩ := decide_allowed_iff_first.mp (evaluate_allowed_iff.mp h).2
  obtain ⟨heffect, hchain, -⟩ := hA.1
  exact mem_allowedChains.mpr ⟨A, hA.mem, heffect, hchain⟩

theorem chain_not_mem_of_code (h : (d.evaluate r now).code? = some "chain_restriction") :
    r.chain ∉ d.allowedChains := by
  obtain ⟨cause, hcause, hcode⟩ := cause_of_code? h
  cases hcause with
  | chain h => exact mt mem_allowedChains.mp h
  | condition A hA c hc cause hcause =>
    exact absurd ((Condition.code_of_check hcause).symm.trans hcode) c.code_ne.2
  | _ => simp [Denial.code] at hcode

theorem denies_of_code (h : (d.evaluate r now).code? = some "action_denied") :
    d.denies r.action = true := by
  obtain ⟨cause, hcause, hcode⟩ := cause_of_code? h
  cases hcause with
  | action h =>
    obtain ⟨p, hp, heffect, -, haction⟩ := h
    exact denies_iff.mpr ⟨p, hp, heffect, haction⟩
  | condition A hA c hc cause hcause =>
    exact absurd ((Condition.code_of_check hcause).symm.trans hcode) c.code_ne.1
  | _ => simp [Denial.code] at hcode

/-- Where the limit of a transfer denies it, that limit is one that the summary looks at. -/
theorem limit_of_code (haction : r.action = .transfer)
    (h : (d.evaluate r now).code? = some "value_limit") :
    ∃ n ∈ d.limits, ∃ value, r.valueUsd = some value ∧ n.le value = true := by
  obtain ⟨cause, hcause, hcode⟩ := cause_of_code? h
  cases hcause with
  | condition A hA c hc cause hcause =>
    obtain ⟨n, rfl⟩ := Condition.code_eq_limit ((Condition.code_of_check hcause).symm.trans hcode)
    have hfails : ¬ (Condition.mk .value (.lessThan n)).check r = none := by simp [hcause]
    rw [Condition.check_lessThan] at hfails
    obtain ⟨value, hvalue, hle⟩ : ∃ value, r.valueUsd = some value ∧ n.le value = true := by
      simpa using hfails
    obtain ⟨heffect, -, htransfer⟩ := hA.1
    have hmem : (⟨.value, .lessThan n⟩ : Condition) ∈ d.transferConditions :=
      mem_transferConditions.mpr ⟨A, hA.mem, ⟨heffect, htransfer.trans haction⟩, hc⟩
    exact ⟨n, List.mem_filterMap.mpr ⟨_, hmem, rfl⟩, value, hvalue, hle⟩
  | _ => simp [Denial.code] at hcode

theorem code_ne_limit (hd : d.WellFormed) (haction : r.action = .transfer)
    (hbelow : ∀ limit value, d.usdLimit = some limit → r.valueUsd = some value →
      value.Below limit) : (d.evaluate r now).code? ≠ some "value_limit" := by
  intro h
  obtain ⟨n, hn, value, hvalue, hle⟩ := limit_of_code haction h
  cases hlimit : d.usdLimit with
  | none =>
    rw [usdLimit_eq, smallest?_eq_none] at hlimit
    simp [hlimit] at hn
  | some limit =>
    have hnan := hd.limits_ne_nan
    have hlt := (hbelow limit value hlimit hvalue).trans_not_below (hnan n hn)
      (not_below_smallest? hnan hlimit hn)
    have hvaluenan : value ≠ .double .nan := by
      rintro rfl
      obtain ⟨x, -, hx, -⟩ := hlt
      simp [Number.value?, Double.value?] at hx
    have hfalse := (Number.le_eq_false_iff (hnan n hn) hvaluenan).mpr (Number.lt_iff.mpr hlt)
    exact Bool.false_ne_true (hfalse.symm.trans hle)

/-- The summary of a document that reading accepts never contradicts a decision: a request that is
allowed is on an allowed chain, one denied for its chain is on another, and one denied for its
action asks for a denied one. A transfer is not denied for its value unless the summary shows a
limit and the value is not below it. -/
theorem summary_agrees {v : Json} (hd : ofJson v = .ok d) (r : Request) (now : Option Number) :
    ((d.evaluate r now).allowed = true → r.chain ∈ d.allowedChains) ∧
      ((d.evaluate r now).code? = some "chain_restriction" → r.chain ∉ d.allowedChains) ∧
      ((d.evaluate r now).code? = some "action_denied" → d.denies r.action = true) ∧
      (r.action = .transfer →
        (∀ limit value, d.usdLimit = some limit → r.valueUsd = some value → value.Below limit) →
        (d.evaluate r now).code? ≠ some "value_limit") := by
  refine ⟨chain_mem_of_allowed, chain_not_mem_of_code, denies_of_code, ?_⟩
  exact code_ne_limit (wellFormed_of_ofJson hd)

/-- Fourteen dollars are below the limit, so toffee is denied for something else. On another chain
it is denied for the chain. -/
theorem summary_agrees_pocketMoney : ofJson pocketMoney.toJson = .ok pocketMoney ∧
    pocketMoney.usdLimit = some 15 ∧
    (pocketMoney.evaluate toffeeRequest (some 1000)).code? ≠ some "value_limit" ∧
    "1" ∉ pocketMoney.allowedChains := by
  have hd := ofJson_toJson wellFormed_pocketMoney
  have hlimit : pocketMoney.usdLimit = some 15 := by decide +kernel
  refine ⟨hd, hlimit, ?_, ?_⟩
  · obtain ⟨-, -, -, hvalue⟩ := summary_agrees hd toffeeRequest (some 1000)
    refine hvalue rfl fun limit value hsome hgiven => ?_
    obtain rfl := Option.some.inj (hlimit.symm.trans hsome)
    obtain rfl := Option.some.inj hgiven
    exact Number.lt_iff.mp (by decide +kernel)
  · obtain ⟨-, hchain, -⟩ := summary_agrees hd { toffeeRequest with chain := "1" } (some 1000)
    exact hchain (by decide +kernel)

end Document

end Allowance
