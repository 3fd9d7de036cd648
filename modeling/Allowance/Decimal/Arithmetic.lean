import Allowance.Decimal.Basic

/-! # Decimal arithmetic

Products and quotients are computed exactly and rounded once. Aligning a decimal to a power of
ten gives it that exponent, and has no result when it would need more digits than are kept.
-/

namespace Allowance.Decimal

def mul (a b : Decimal) : Checked Decimal :=
  match a, b with
  | .nan true, _ => misuse .undefinedDecimal
  | _, .nan true => misuse .undefinedDecimal
  | .nan false, _ => .ok (.nan false)
  | _, .nan false => .ok (.nan false)
  | .finite s c e, .finite t d f => round (s != t) (c * d) (e + f)
  | .infinity s, .infinity t => .ok (.infinity (s != t))
  | .infinity s, .finite t d _ =>
    if d = 0 then misuse .undefinedDecimal else .ok (.infinity (s != t))
  | .finite s c _, .infinity t =>
    if c = 0 then misuse .undefinedDecimal else .ok (.infinity (s != t))

/-- A coefficient without zeros at its end, as long as its exponent is below `ideal`. -/
def reduceTo (ideal : Int) : Nat → Nat → Int → Nat × Int
  | 0, c, e => (c, e)
  | fuel + 1, c, e =>
    if e < ideal && c != 0 && c % 10 == 0 then reduceTo ideal fuel (c / 10) (e + 1) else (c, e)

/-- A quotient with more digits than are kept. When the division leaves a remainder and the last
digit would round as if it left none, the digit is raised. -/
def stickyQuotient (num den : Nat) : Nat :=
  let quotient := num / den
  if num % den != 0 && quotient % 5 == 0 then quotient + 1 else quotient

def div (a b : Decimal) : Checked Decimal :=
  match a, b with
  | .nan true, _ => misuse .undefinedDecimal
  | _, .nan true => misuse .undefinedDecimal
  | .nan false, _ => .ok (.nan false)
  | _, .nan false => .ok (.nan false)
  | .infinity _, .infinity _ => misuse .undefinedDecimal
  | .infinity s, .finite t _ _ => .ok (.infinity (s != t))
  | .finite s _ _, .infinity t => .ok (.finite (s != t) 0 minExponent)
  | .finite s c e, .finite t d f =>
    if d = 0 then misuse .undefinedDecimal
    else if c = 0 then round (s != t) 0 (e - f)
    else
      let shift : Int := digitCount d - digitCount c + precision + 1
      let num := c * tenTo shift.toNat
      let den := d * tenTo (-shift).toNat
      if num % den = 0 then
        let (quotient, exponent) := reduceTo (e - f) (precision + 2) (num / den) (e - f - shift)
        round (s != t) quotient exponent
      else round (s != t) (stickyQuotient num den) (e - f - shift)

/-- How the digits behind an alignment are dropped. -/
inductive Rounding
  | down
  | halfEven
  deriving DecidableEq

def Rounding.shift (rounding : Rounding) (coefficient places : Nat) : Nat :=
  if digitCount coefficient < places then 0
  else match rounding with
    | .down => coefficient / tenTo places
    | .halfEven => roundHalfEven coefficient (tenTo places)

/-- The decimal with the given exponent that is nearest to another, or next to it towards zero. -/
def align (a : Decimal) (exponent : Int) (rounding : Rounding) : Checked Decimal :=
  match a with
  | .nan true => misuse .undefinedDecimal
  | .nan false => .ok (.nan false)
  | .infinity _ => misuse .undefinedDecimal
  | .finite negative c e =>
    if maxExponent < exponent || exponent < minExponent then misuse .undefinedDecimal
    else if c = 0 then .ok (.finite negative 0 exponent)
    else if precision < digitCount c + (e - exponent) then misuse .undefinedDecimal
    else
      let aligned :=
        if exponent ≤ e then c * tenTo (e - exponent).toNat
        else rounding.shift c (exponent - e).toNat
      if precision < digitCount aligned then misuse .undefinedDecimal
      else .ok (.finite negative aligned exponent)

def powerExponent (n : Int) : Checked Int :=
  let limit := 2 * (maxExponent + precision)
  if n < -limit || limit < n then misuse .undefinedDecimal
  else if maxExponent < n then misuse .decimalTooLarge
  else .ok (max minExponent n)

def reduce : Decimal → Decimal
  | .finite negative c e =>
    if c = 0 then .finite negative 0 0
    else
      let (c, e) := reduceTo maxExponent (digitCount c) c e
      .finite negative c e
  | d => d

/-- Whether a decimal is zero or negative; what is not a number cannot be compared. -/
def nonPositive : Decimal → Checked Bool
  | .finite negative c _ => .ok (negative || c == 0)
  | .infinity negative => .ok negative
  | .nan _ => misuse .undefinedDecimal

def isNegative : Decimal → Checked Bool
  | .finite negative c _ => .ok (negative && c != 0)
  | .infinity negative => .ok negative
  | .nan _ => misuse .undefinedDecimal

end Allowance.Decimal
