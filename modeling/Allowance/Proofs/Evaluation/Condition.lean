import Allowance.Proofs.Document.Wire
import Allowance.Proofs.Evaluation
import Allowance.Proofs.Number.Value

/-! # What conditions mean

A condition is about one input of a request. A request that carries the input meets the condition
when the input compares with the reference as the comparator says: values by what they are worth,
addresses in any letter case, arguments as texts or as the numbers that they are read as. Where
input and comparator do not go together no request meets the condition. A check fails exactly when
the input is there and does not meet the condition.
-/

namespace Allowance

namespace Test

def MetByValue : Test → Number → Prop
  | .lessThan n, value => value.Below n
  | .greaterThan n, value => n.Below value
  | .equalsNumber n, value => value.Equals n
  | .equalsText s, value => ∃ d, Text.readDouble? s = some d ∧ value.Equals (.double d)
  | .includedIn _, _ => False
  | .notIncludedIn _, _ => False

def MetByAddress : Test → String → Prop
  | .includedIn listed, address => ∃ s ∈ listed, Address.key s = Address.key address
  | .notIncludedIn listed, address => ∀ s ∈ listed, Address.key s ≠ Address.key address
  | .equalsText s, address => Address.key address = Address.key s
  | .equalsNumber _, _ => False
  | .greaterThan _, _ => False
  | .lessThan _, _ => False

def MetByArgument : Test → String → Prop
  | .includedIn listed, argument => argument ∈ listed
  | .notIncludedIn listed, argument => argument ∉ listed
  | .equalsText s, argument => argument = s
  | .equalsNumber n, argument =>
    ∃ d, Text.readDouble? argument = some d ∧ (Number.double d).Equals n
  | .lessThan n, argument => ∃ d, Text.readDouble? argument = some d ∧ (Number.double d).Below n
  | .greaterThan n, argument => ∃ d, Text.readDouble? argument = some d ∧ n.Below (.double d)

def valueCode : Test → String
  | .lessThan _ => "value_limit"
  | .greaterThan _ => "value_minimum"
  | .equalsNumber _ => "value_exact"
  | .equalsText s =>
    if (Text.readDouble? s).isSome then "value_exact" else "unsupported_condition"
  | .includedIn _ => "unsupported_condition"
  | .notIncludedIn _ => "unsupported_condition"

def addressCode : Test → String
  | .includedIn _ => "address_allowlist"
  | .notIncludedIn _ => "address_blocklist"
  | .equalsText _ => "address_exact"
  | .equalsNumber _ => "unsupported_condition"
  | .greaterThan _ => "unsupported_condition"
  | .lessThan _ => "unsupported_condition"

end Test

namespace Condition

/-- The request does not carry the input of the condition. -/
def Lacks (c : Condition) (r : Request) : Prop :=
  match c.resource with
  | .value => r.valueUsd = none
  | .recipient => r.recipient = none
  | .sender => r.sender = none
  | .argument _ index => ∀ arguments, r.arguments = some arguments → arguments.length ≤ index

/-- The request carries the input of the condition, and it compares as it should. -/
def Met (c : Condition) (r : Request) : Prop :=
  match c.resource with
  | .value => ∃ value, r.valueUsd = some value ∧ c.test.MetByValue value
  | .recipient => ∃ address, r.recipient = some address ∧ c.test.MetByAddress address
  | .sender => ∃ address, r.sender = some address ∧ c.test.MetByAddress address
  | .argument _ index => ∃ arguments argument, r.arguments = some arguments ∧
      arguments[index]? = some argument ∧ c.test.MetByArgument argument

/-- The condition does not stand in the way of the request. -/
def Admits (c : Condition) (r : Request) : Prop := c.Lacks r ∨ c.Met r

def code (c : Condition) : String :=
  match c.resource with
  | .value => c.test.valueCode
  | .recipient => c.test.addressCode
  | .sender => c.test.addressCode
  | .argument _ _ => "argument_mismatch"

variable {c : Condition} {r : Request} {cause : Denial}

theorem ne_nan_of_isFinite {n : Number} (h : n.isFinite? = some true) : n ≠ .double .nan :=
  Number.ne_nan_of_isFinite h rfl

theorem checkValue_eq_none {value : Number} (hc : c.test.WellFormed)
    (hvalue : value ≠ .double .nan) : c.checkValue value = none ↔ c.test.MetByValue value := by
  unfold checkValue
  cases ht : c.test with
  | lessThan n =>
    rw [ht] at hc
    simp [denyUnless_eq_none, Test.MetByValue,
      Number.le_eq_false_iff (ne_nan_of_isFinite hc) hvalue, Number.lt_iff]
  | greaterThan n =>
    rw [ht] at hc
    simp [denyUnless_eq_none, Test.MetByValue,
      Number.le_eq_false_iff hvalue (ne_nan_of_isFinite hc), Number.lt_iff]
  | equalsNumber n => simp [denyUnless_eq_none, Test.MetByValue, Number.same_iff]
  | equalsText s =>
    cases hs : Text.readDouble? s <;>
      simp [denyUnless_eq_none, Test.MetByValue, Number.same_iff, hs]
  | includedIn listed => simp [Test.MetByValue]
  | notIncludedIn listed => simp [Test.MetByValue]

theorem checkAddress_eq_none {address : String} {role : AddressRole} :
    c.checkAddress address role = none ↔ c.test.MetByAddress address := by
  unfold checkAddress
  cases c.test <;> simp [denyUnless_eq_none, Test.MetByAddress]

theorem argumentNumber_iff {argument : String} {passes : Number → Bool} :
    argumentNumber argument passes = true ↔
      ∃ d, Text.readDouble? argument = some d ∧ passes (.double d) = true := by
  cases hd : Text.readDouble? argument <;> simp [argumentNumber, hd]

theorem checkArgument_eq_none {index : Nat} {argument : String} :
    c.checkArgument index argument = none ↔ c.test.MetByArgument argument := by
  rw [checkArgument, denyUnless_eq_none]
  cases c.test <;>
    simp [argumentPasses, Test.MetByArgument, argumentNumber_iff, Number.lt_iff, Number.same_iff]

theorem check_eq_none (hc : c.WellFormed) (hr : r.valueUsd ≠ some (.double .nan)) :
    c.check r = none ↔ c.Admits r := by
  unfold check Admits Lacks Met
  cases c.resource with
  | value =>
    cases hv : r.valueUsd with
    | none => simp
    | some value => simpa using checkValue_eq_none hc.2 fun h => hr (by rw [hv, h])
  | recipient => cases r.recipient <;> simp [checkAddress_eq_none]
  | sender => cases r.sender <;> simp [checkAddress_eq_none]
  | argument spelling index =>
    cases r.arguments with
    | none => simp
    | some arguments =>
      cases ha : arguments[index]? with
      | none => simpa [ha] using List.getElem?_eq_none_iff.mp ha
      | some argument =>
        have hlt := (List.getElem?_eq_some_iff.mp ha).1
        simp [ha, checkArgument_eq_none, Nat.not_le.mpr hlt]

theorem denyUnless_eq_some {holds : Bool} {given : Denial} :
    denyUnless holds given = some cause ↔ holds = false ∧ given = cause := by
  cases holds <;> simp [denyUnless]

theorem code_of_checkValue {value : Number} (h : c.checkValue value = some cause) :
    cause.code = c.test.valueCode := by
  unfold checkValue at h
  cases ht : c.test with
  | equalsText s =>
    rw [ht] at h
    cases hs : Text.readDouble? s <;> simp only [hs, denyUnless_eq_some, Option.some.injEq] at h
    · simp [← h, Denial.code, Test.valueCode, hs]
    · simp [← h.2, Denial.code, Test.valueCode, hs]
  | _ =>
    simp only [ht, denyUnless_eq_some, Option.some.injEq] at h
    first
      | rw [← h.2]; rfl
      | rw [← h]; rfl

theorem code_of_checkAddress {address : String} {role : AddressRole}
    (h : c.checkAddress address role = some cause) : cause.code = c.test.addressCode := by
  unfold checkAddress at h
  cases ht : c.test <;> simp only [ht, denyUnless_eq_some, Option.some.injEq] at h <;>
    first
      | rw [← h.2]; rfl
      | rw [← h]; rfl

theorem code_of_check (h : c.check r = some cause) : cause.code = c.code := by
  unfold check at h
  unfold code
  cases hc : c.resource with
  | value =>
    rw [hc] at h
    obtain ⟨value, _, h⟩ := Option.bind_eq_some_iff.mp h
    exact code_of_checkValue h
  | recipient =>
    rw [hc] at h
    obtain ⟨address, _, h⟩ := Option.bind_eq_some_iff.mp h
    exact code_of_checkAddress h
  | sender =>
    rw [hc] at h
    obtain ⟨address, _, h⟩ := Option.bind_eq_some_iff.mp h
    exact code_of_checkAddress h
  | argument spelling index =>
    rw [hc] at h
    obtain ⟨argument, _, h⟩ := Option.bind_eq_some_iff.mp h
    rw [checkArgument, denyUnless_eq_some] at h
    rw [← h.2]
    rfl

end Condition

end Allowance
