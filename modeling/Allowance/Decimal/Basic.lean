import Allowance.Fault.Basic
import Allowance.Number.Double

/-! # Decimals

A decimal is a signed coefficient times a power of ten, an infinity or not a number. The results
of arithmetic have at most 28 digits: what is longer is rounded to the nearest, a half to the
even neighbour. A result too large for the exponents is a fault, and one too small loses digits.
What is not a number either stays so quietly or signals at its first use.
-/

namespace Allowance

inductive Decimal
  | finite (negative : Bool) (coefficient : Nat) (exponent : Int)
  | infinity (negative : Bool)
  | nan (signaling : Bool)
  deriving DecidableEq

namespace Decimal

def precision : Nat := 28

/-- The largest power of ten of a result's first digit. -/
def maxExponent : Int := 999999

def minExponent : Int := -1000026

def digitCount (n : Nat) : Nat := (Text.digits n).length

def ofInt (n : Int) : Decimal := .finite (n < 0) n.natAbs 0

def dropDigits (coefficient count : Nat) : Nat :=
  if digitCount coefficient < count then 0 else roundHalfEven coefficient (tenTo count)

/-- How many of the last digits of an exact result do not fit. -/
def surplus (coefficient : Nat) (exponent : Int) : Nat :=
  max (digitCount coefficient - precision) (minExponent - exponent).toNat

def round (negative : Bool) (coefficient : Nat) (exponent : Int) : Checked Decimal :=
  if coefficient = 0 then
    .ok (.finite negative 0 (max minExponent (min maxExponent exponent)))
  else
    let drop := surplus coefficient exponent
    let kept := dropDigits coefficient drop
    let carried := precision < digitCount kept
    let kept' := if carried then kept / 10 else kept
    let exponent' := exponent + drop + (if carried then 1 else 0)
    if kept' != 0 && maxExponent < exponent' + digitCount kept' - 1 then misuse .decimalTooLarge
    else .ok (.finite negative kept' exponent')

def toDouble : Decimal → Double
  | .finite negative coefficient exponent => .ofDecimal negative coefficient exponent
  | .infinity negative => .infinity negative
  | .nan _ => .nan

def toInt : Decimal → Checked Int
  | .finite negative coefficient exponent =>
    let magnitude : Int :=
      if 0 ≤ exponent then (coefficient * tenTo exponent.toNat : Nat)
      else if digitCount coefficient < (-exponent).toNat then 0
      else (coefficient / tenTo (-exponent).toNat : Nat)
    .ok (if negative then -magnitude else magnitude)
  | .infinity _ => misuse .tooLarge
  | .nan _ => misuse .badValue

end Decimal

end Allowance
