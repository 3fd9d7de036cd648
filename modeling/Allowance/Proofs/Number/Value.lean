import Allowance.Proofs.Number.Order
import Mathlib.Algebra.Order.Field.Rat
import Mathlib.Order.WithBotTop
import Mathlib.Tactic.Positivity

/-! # The values of numbers

A number that is not NaN stands for a rational number or for one of the two infinities. Comparing
numbers is comparing these values, so integers are compared exactly, and with doubles too.
-/

namespace Allowance

theorem Double.unitsPerOne_pos : (0 : ℚ) < Double.unitsPerOne :=
  Nat.cast_pos.mpr (twoTo_pos 1074)

-- Otherwise the search for instances computes the power of two.
attribute [local irreducible] Double.unitsPerOne

/-- The rational number or the infinity that a double stands for; NaN stands for none. -/
def Double.value? : Double → Option (WithBotTop ℚ)
  | .nan => none
  | .infinity negative => some (if negative then ⊥ else ⊤)
  | .finite negative units =>
    some (((if negative then -(units : ℚ) else units) / Double.unitsPerOne : ℚ))

namespace Number

def value? : Number → Option (WithBotTop ℚ)
  | .int n => some ((n : ℚ))
  | .double d => d.value?

@[simp] theorem value?_int (n : Int) : (Number.int n).value? = some ↑(n : ℚ) := rfl

@[simp] theorem value?_double (d : Double) : (Number.double d).value? = d.value? := rfl

def Below (a b : Number) : Prop := ∃ x y, a.value? = some x ∧ b.value? = some y ∧ x < y

def Equals (a b : Number) : Prop := ∃ x, a.value? = some x ∧ b.value? = some x

variable {a b : Number} {i : Int} {x : Int}

inductive Stands : Int × Int → WithBotTop ℚ → Prop
  | bottom : Stands (-1, 0) ⊥
  | top : Stands (1, 0) ⊤
  | units (x : Int) : Stands (0, x) ((x / Double.unitsPerOne : ℚ))

theorem stands (a : Number) : a = .double .nan ∨
    ∃ p v, a.position? = some p ∧ a.value? = some v ∧ Stands p v := by
  cases a with
  | int n =>
    refine Or.inr ⟨_, _, rfl, rfl, ?_⟩
    have hvalue : ((n * Double.unitsPerOne : Int) : ℚ) / Double.unitsPerOne = n := by
      push_cast
      exact mul_div_cancel_right₀ _ Double.unitsPerOne_pos.ne'
    exact hvalue ▸ .units _
  | double d =>
    cases d with
    | nan => exact Or.inl rfl
    | infinity negative =>
      cases negative
      · exact Or.inr ⟨_, _, rfl, rfl, .top⟩
      · exact Or.inr ⟨_, _, rfl, rfl, .bottom⟩
    | finite negative units =>
      refine Or.inr ⟨_, _, rfl, rfl, ?_⟩
      cases negative
      · simpa using Stands.units units
      · simpa using Stands.units (-units)

theorem coe_lt_top (x : ℚ) : (x : WithBotTop ℚ) < ⊤ :=
  lt_top_iff_ne_top.mpr (WithBotTop.coe_ne_top x)

theorem bot_lt_coe (x : ℚ) : ⊥ < (x : WithBotTop ℚ) :=
  bot_lt_iff_ne_bot.mpr (WithBotTop.coe_ne_bot x)

theorem Stands.lt_iff {p q : Int × Int} {v w : WithBotTop ℚ} (hp : Stands p v)
    (hq : Stands q w) : v < w ↔ p.1 < q.1 ∨ p.1 = q.1 ∧ p.2 < q.2 := by
  have hunits (x y : Int) :
      (x / Double.unitsPerOne : ℚ) < y / Double.unitsPerOne ↔ x < y := by
    rw [div_lt_div_iff_of_pos_right Double.unitsPerOne_pos, Int.cast_lt]
  cases hp <;> cases hq <;> simp [hunits, coe_lt_top, bot_lt_coe]

theorem Stands.eq_iff {p q : Int × Int} {v w : WithBotTop ℚ} (hp : Stands p v)
    (hq : Stands q w) : p = q ↔ w = v := by
  have hne := Double.unitsPerOne_pos.ne'
  have hinj (x y : ℚ) : WithBotTop.coe x = WithBotTop.coe y ↔ x = y :=
    WithBotTop.coe_injective.eq_iff
  cases hp <;> cases hq <;> simp [hinj, div_left_inj' hne, (bot_lt_coe _).ne, (coe_lt_top _).ne',
    eq_comm]

theorem lt_iff : a.lt b = true ↔ a.Below b := by
  rcases stands a with rfl | ⟨p, v, hp, hv, hpv⟩
  · simp [lt, Below, position?, value?, Double.value?]
  rcases stands b with rfl | ⟨q, w, hq, hw, hqw⟩
  · simp [lt, Below, position?, value?, Double.value?]
  simp [lt, Below, hp, hq, hv, hw, hpv.lt_iff hqw]

theorem same_iff : a.same b = true ↔ a.Equals b := by
  rcases stands a with rfl | ⟨p, v, hp, hv, hpv⟩
  · simp [same, Equals, position?, value?, Double.value?]
  rcases stands b with rfl | ⟨q, w, hq, hw, hqw⟩
  · simp [same, Equals, position?, value?, Double.value?]
  simp [same, Equals, hp, hq, hv, hw, hpv.eq_iff hqw]

end Number

end Allowance
