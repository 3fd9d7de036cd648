import Allowance.Evaluation

/-! # When a document allows

A document allows a request when its window is open, no permission on the action and the chain
denies, and the first one that allows has no failing condition. Where all permissions that allow the
action carry the same conditions, which of them comes first does not matter.
-/

namespace Allowance

theorem denyUnless_eq_none {holds : Bool} {cause : Denial} :
    denyUnless holds cause = none ↔ holds = true := by
  cases holds <;> simp [denyUnless]

namespace Condition

variable {r : Request}

theorem check_lessThan {n : Number} : (Condition.mk .value (.lessThan n)).check r = none ↔
    ∀ value, r.valueUsd = some value → n.le value = false := by
  cases hv : r.valueUsd <;> simp [check, checkValue, hv, denyUnless_eq_none]

theorem check_includedIn {listed : List String} :
    (Condition.mk .recipient (.includedIn listed)).check r = none ↔
      ∀ address, r.recipient = some address → Address.key address ∈ listed.map Address.key := by
  cases hr : r.recipient <;> simp [check, checkAddress, hr, denyUnless_eq_none]

end Condition

theorem Effect.ne_deny {e : Effect} : e ≠ .deny ↔ e = .allow := by
  cases e <;> simp

namespace Document

variable {d : Document} {r : Request} {now : Option Number} {cs : List Condition} {p : Permission}

theorem mem_matching :
    p ∈ d.matching r ↔ p ∈ d.permissions ∧ p.chain = r.chain ∧ p.action = r.action := by
  simp [matching, Permission.covers]

theorem decide_of_deny (h : ∃ p ∈ d.matching r, p.effect = .deny) :
    d.decide r = .deny (.actionDenied r.action r.chain) := by
  have hany : (d.matching r).any (·.effect == .deny) = true := by simpa using h
  simp [decide, hany]

theorem decide_allowed_of_find (h : ∀ p ∈ d.matching r, p.effect ≠ .deny)
    (hp : (d.matching r).find? (·.effect == .allow) = some p) :
    (d.decide r).allowed = true ↔ ∀ c ∈ p.conditions, c.check r = none := by
  have hany : (d.matching r).any (·.effect == .deny) = false := by simpa using h
  rw [← List.findSome?_eq_none_iff]
  cases hc : p.conditions.findSome? (·.check r) <;>
    simp [decide, hany, hp, hc, Decision.allowed]

theorem decide_allowed_of_none (h : (d.matching r).find? (·.effect == .allow) = none) :
    (d.decide r).allowed = false := by
  unfold decide
  dsimp only
  rw [h]
  split
  · rfl
  · dsimp only
    split <;> rfl

/-- Where the permissions that allow a request agree on the conditions, these alone decide. -/
theorem decide_allowed_iff (hcs : ∀ p ∈ d.matching r, p.effect = .allow → p.conditions = cs) :
    (d.decide r).allowed = true ↔ (∀ p ∈ d.matching r, p.effect = .allow) ∧
      d.matching r ≠ [] ∧ ∀ c ∈ cs, c.check r = none := by
  by_cases hdeny : ∃ p ∈ d.matching r, p.effect = .deny
  · obtain ⟨p, hp, he⟩ := hdeny
    rw [decide_of_deny ⟨p, hp, he⟩]
    simp only [Decision.allowed, Bool.false_eq_true, false_iff]
    rintro ⟨hall, _⟩
    simp [hall p hp] at he
  have hno : ∀ p ∈ d.matching r, p.effect ≠ .deny := fun p hp he => hdeny ⟨p, hp, he⟩
  have hall : ∀ p ∈ d.matching r, p.effect = .allow := fun p hp => Effect.ne_deny.mp (hno p hp)
  cases hfind : (d.matching r).find? (·.effect == .allow) with
  | none =>
    have hempty : d.matching r = [] := by
      refine List.eq_nil_iff_forall_not_mem.mpr fun p hp => ?_
      simpa [hall p hp] using List.find?_eq_none.mp hfind p hp
    simp [decide_allowed_of_none hfind, hempty]
  | some p =>
    have hp := List.mem_of_find?_eq_some hfind
    rw [decide_allowed_of_find hno hfind, hcs p hp (hall p hp)]
    exact ⟨fun h => ⟨hall, List.ne_nil_of_mem hp, h⟩, fun h => h.2.2⟩

theorem evaluate_allowed_iff : (d.evaluate r now).allowed = true ↔
    now.bind d.checkWindow = none ∧ (d.decide r).allowed = true := by
  cases hw : now.bind d.checkWindow <;> simp [evaluate, hw, Decision.allowed]

theorem evaluateAt_ofNumber? (d : Document) (r : Request) (now : Option Number) :
    d.evaluateAt r (.ofNumber? now) = .ok (d.evaluate r now) := by
  cases now <;> rfl

theorem checkWindow_eq_none {t : Number} : d.checkWindow t = none ↔
    (∀ start, d.validFrom = some start → t.lt start = false) ∧
      ∀ stop, d.validTo = some stop → stop.lt t = false := by
  cases hf : d.validFrom <;> cases ht : d.validTo <;>
    simp [checkWindow, hf, ht] <;> split <;> simp_all

end Document

end Allowance
