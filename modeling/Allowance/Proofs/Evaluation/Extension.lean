import Allowance.Proofs.Evaluation.Verdict

/-! # Requests that carry more

A request may leave out its value, its addresses and its arguments, and a condition on what it
leaves out is skipped. Leaving data out is the only leniency: a request that carries more meets the
same permissions, and each condition that had its input before is decided as before. So more data
turns no denial into an approval, and changes nothing where all inputs were there.
-/

namespace Allowance

/-- The request carries all that another one does, and perhaps more. -/
structure Request.Extends (r' r : Request) : Prop where
  chain : r'.chain = r.chain
  action : r'.action = r.action
  valueUsd : ∀ value, r.valueUsd = some value → r'.valueUsd = some value
  recipient : ∀ address, r.recipient = some address → r'.recipient = some address
  sender : ∀ address, r.sender = some address → r'.sender = some address
  arguments : ∀ arguments, r.arguments = some arguments →
    ∃ more, r'.arguments = some (arguments ++ more)

namespace Condition

variable {c : Condition} {r r' : Request}

theorem check_of_lacks (h : c.Lacks r) : c.check r = none := by
  unfold Lacks at h
  unfold check
  cases hresource : c.resource with
  | value => simp_all
  | recipient => simp_all
  | sender => simp_all
  | argument spelling index =>
    rw [hresource] at h
    cases harguments : r.arguments with
    | none => rfl
    | some arguments => simp [List.getElem?_eq_none (h arguments harguments)]

theorem check_of_extends (h : r'.Extends r) (hc : ¬ c.Lacks r) : c.check r' = c.check r := by
  unfold Lacks at hc
  unfold check
  cases hresource : c.resource with
  | value =>
    rw [hresource] at hc
    obtain ⟨value, hvalue⟩ := Option.ne_none_iff_exists'.mp hc
    simp only [hvalue, h.valueUsd value hvalue]
  | recipient =>
    rw [hresource] at hc
    obtain ⟨address, haddress⟩ := Option.ne_none_iff_exists'.mp hc
    simp only [haddress, h.recipient address haddress]
  | sender =>
    rw [hresource] at hc
    obtain ⟨address, haddress⟩ := Option.ne_none_iff_exists'.mp hc
    simp only [haddress, h.sender address haddress]
  | argument spelling index =>
    rw [hresource] at hc
    push Not at hc
    obtain ⟨arguments, harguments, hindex⟩ := hc
    obtain ⟨more, hmore⟩ := h.arguments arguments harguments
    simp only [harguments, hmore, Option.bind_some, List.getElem?_append_left hindex]

/-- No condition that failed passes with more data. -/
theorem check_eq_none_of_extends (h : r'.Extends r) (hcheck : c.check r' = none) :
    c.check r = none := by
  by_cases hc : c.Lacks r
  · exact check_of_lacks hc
  · rwa [← check_of_extends h hc]

end Condition

namespace Request.Extends

variable {d : Document} {r r' : Request} {now : Option Number} {A : Permission}

theorem rules_iff (h : r'.Extends r) {effect : Effect} : A.Rules effect r' ↔ A.Rules effect r := by
  rw [Permission.Rules, Permission.Rules, h.chain, h.action]

theorem denies_iff (h : r'.Extends r) : d.Denies r' ↔ d.Denies r := by
  simp only [Document.Denies, h.rules_iff]

theorem allows_iff (h : r'.Extends r) : d.Allows r' ↔ d.Allows r := by
  simp only [Document.Allows, h.rules_iff]

theorem firstAllowing_iff (h : r'.Extends r) : d.FirstAllowing r' A ↔ d.FirstAllowing r A := by
  simp only [Document.FirstAllowing, h.rules_iff]

theorem decide_allowed (h : r'.Extends r) (hallowed : (d.decide r').allowed = true) :
    (d.decide r).allowed = true := by
  rw [Document.decide_allowed_iff_first] at hallowed ⊢
  obtain ⟨hdeny, A, hA, hchecks⟩ := hallowed
  refine ⟨h.denies_iff.not.mp hdeny, A, h.firstAllowing_iff.mp hA, ?_⟩
  intro c hc
  exact Condition.check_eq_none_of_extends h (hchecks c hc)

theorem decide_eq (h : r'.Extends r) (hchecks : ∀ A, d.FirstAllowing r A →
    ∀ c ∈ A.conditions, c.check r' = c.check r) : d.decide r' = d.decide r := by
  by_cases hdeny : d.Denies r
  · rw [Document.decide_of_denies hdeny, Document.decide_of_denies (h.denies_iff.mpr hdeny),
      h.chain, h.action]
  have hdeny' : ¬ d.Denies r' := h.denies_iff.not.mpr hdeny
  cases hfind : (d.matching r).find? (·.effect == .allow) with
  | some A =>
    have hA := Document.find?_allow_eq_some.mp hfind
    apply Decision.eq_of_denial?
    rw [Document.decide_of_firstAllowing hdeny hA,
      Document.decide_of_firstAllowing hdeny' (h.firstAllowing_iff.mpr hA), ← List.head?_filterMap,
      ← List.head?_filterMap, List.filterMap_congr (hchecks A hA)]
  | none =>
    have hnone := Document.find?_allow_eq_none.mp hfind
    obtain ⟨hon, hoff⟩ := Document.decide_of_not_allows hdeny hnone
    obtain ⟨hon', hoff'⟩ := Document.decide_of_not_allows hdeny' (h.allows_iff.not.mpr hnone)
    rw [h.chain, h.action] at hon'
    rw [h.chain] at hoff'
    by_cases hchain : d.AllowsOn r.chain
    · rw [hon hchain, hon' hchain]
    · rw [hoff hchain, hoff' hchain]

end Request.Extends

namespace Document

variable {d : Document} {r r' : Request} {now : Option Number}

theorem evaluate_allowed_of_extends (h : r'.Extends r)
    (hallowed : (d.evaluate r' now).allowed = true) : (d.evaluate r now).allowed = true := by
  rw [evaluate_allowed_iff] at hallowed ⊢
  exact ⟨hallowed.1, h.decide_allowed hallowed.2⟩

/-- Where the decisions differ, a condition was skipped for want of its input, and fails now. -/
theorem skipped_of_evaluate_ne (h : r'.Extends r) (hne : d.evaluate r' now ≠ d.evaluate r now) :
    ∃ A, d.FirstAllowing r A ∧ ∃ c ∈ A.conditions, c.Lacks r ∧ c.check r' ≠ none := by
  by_contra hno
  push Not at hno
  apply hne
  have hdecide : d.decide r' = d.decide r := by
    apply h.decide_eq
    intro A hA c hc
    by_cases hlacks : c.Lacks r
    · rw [hno A hA c hc hlacks, Condition.check_of_lacks hlacks]
    · exact Condition.check_of_extends h hlacks
  rw [evaluate, evaluate, hdecide]

/-- A request that carries more is allowed only if it was allowed before. The decision is the same
if every input that the first permission to allow asks for was there, and otherwise it is the same
or a denial, since a condition that was skipped fails. -/
theorem evaluate_extends (h : r'.Extends r) (now : Option Number) :
    ((d.evaluate r' now).allowed = true → (d.evaluate r now).allowed = true) ∧
    ((∀ A, d.FirstAllowing r A → ∀ c ∈ A.conditions, ¬ c.Lacks r) →
      d.evaluate r' now = d.evaluate r now) ∧
    (d.evaluate r' now ≠ d.evaluate r now → (d.evaluate r' now).allowed = false ∧
      ∃ A, d.FirstAllowing r A ∧ ∃ c ∈ A.conditions, c.Lacks r ∧ c.check r' ≠ none) := by
  refine ⟨evaluate_allowed_of_extends h, ?_, ?_⟩
  · intro hcarried
    by_contra hne
    obtain ⟨A, hA, c, hc, hlacks, -⟩ := skipped_of_evaluate_ne h hne
    exact hcarried A hA c hc hlacks
  · intro hne
    refine ⟨?_, skipped_of_evaluate_ne h hne⟩
    rw [← Bool.not_eq_true]
    intro hallowed
    apply hne
    apply Decision.eq_of_denial?
    rw [Decision.allowed_iff.mp hallowed,
      Decision.allowed_iff.mp (evaluate_allowed_of_extends h hallowed)]

def sweets (arguments : List String) : Request := { toffeeRequest with arguments := some arguments }

/-- Toffee was allowed as long as it was not named, and candy that is also red stays allowed. -/
theorem evaluate_extends_sweets :
    ((sweets ["toffee"]).Extends (sweets []) ∧
      (pocketMoney.evaluate (sweets []) (some 1000)).allowed = true ∧
      (pocketMoney.evaluate (sweets ["toffee"]) (some 1000)).allowed = false ∧
      ∃ A, pocketMoney.FirstAllowing (sweets []) A ∧
        ∃ c ∈ A.conditions, c.Lacks (sweets []) ∧ c.check (sweets ["toffee"]) ≠ none) ∧
    (sweets ["candy", "red"]).Extends (sweets ["candy"]) ∧
      (∀ A, pocketMoney.FirstAllowing (sweets ["candy"]) A →
        ∀ c ∈ A.conditions, ¬ c.Lacks (sweets ["candy"])) ∧
      pocketMoney.evaluate (sweets ["candy", "red"]) (some 1000) =
        pocketMoney.evaluate (sweets ["candy"]) (some 1000) := by
  have hextends (arguments more : List String) :
      (sweets (arguments ++ more)).Extends (sweets arguments) :=
    ⟨rfl, rfl, fun _ h => h, fun _ h => h, fun _ h => h, by rintro _ ⟨⟩; exact ⟨more, rfl⟩⟩
  have hallowed : (pocketMoney.evaluate (sweets []) (some 1000)).allowed = true := by
    decide +kernel
  have hdenied : (pocketMoney.evaluate (sweets ["toffee"]) (some 1000)).allowed = false := by
    decide +kernel
  have hne : pocketMoney.evaluate (sweets ["toffee"]) (some 1000) ≠
      pocketMoney.evaluate (sweets []) (some 1000) := by
    intro heq
    rw [heq, hallowed] at hdenied
    cases hdenied
  have hcarried : ∀ A, pocketMoney.FirstAllowing (sweets ["candy"]) A →
      ∀ c ∈ A.conditions, ¬ c.Lacks (sweets ["candy"]) := by
    intro A hA c hc
    obtain ⟨scope, hscope, hA⟩ := List.mem_flatMap.mp hA.mem
    obtain rfl := List.mem_singleton.mp hscope
    obtain rfl := List.mem_singleton.mp hA
    simp only [List.mem_cons, List.not_mem_nil, or_false] at hc
    rcases hc with rfl | rfl | rfl <;> simp [Condition.Lacks, sweets, toffeeRequest]
  refine ⟨⟨hextends [] ["toffee"], hallowed, hdenied, ?_⟩, hextends ["candy"] ["red"], hcarried, ?_⟩
  · exact ((evaluate_extends (hextends [] ["toffee"]) (some 1000)).2.2 hne).2
  · exact (evaluate_extends (hextends ["candy"] ["red"]) (some 1000)).2.1 hcarried

end Document

end Allowance
