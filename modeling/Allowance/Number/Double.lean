import Allowance.Number.Power
import Allowance.Number.Rounding

/-! # Doubles

A double is a number of 53 significant bits, an infinity or not a number. Every finite double is
a whole multiple of 2⁻¹⁰⁷⁴, and is kept as that multiple beside its sign. A rational number is
turned into a double by one rounding to the nearest, a half to the even neighbour.
-/

namespace Allowance

/-- A double; `finite` holds the magnitude in units of 2⁻¹⁰⁷⁴. -/
inductive Double
  | nan
  | infinity (negative : Bool)
  | finite (negative : Bool) (units : Nat)
  deriving DecidableEq

namespace Double

def unitsPerOne : Nat := twoTo 1074

def unitsBeyond : Nat := twoTo 2098

/-- How many binary digits of a magnitude in units lie behind its 53 significant ones. -/
def excessBits (units : Nat) : Nat := units.log2 - 52

def ofRatio (negative : Bool) (num den : Nat) : Double :=
  let scaled := num * unitsPerOne
  let step := twoTo (excessBits (scaled / den))
  let units := roundHalfEven scaled (den * step) * step
  if unitsBeyond ≤ units then .infinity negative else .finite negative units

def ofInt (n : Int) : Double := ofRatio (n < 0) n.natAbs 1

/-- The double nearest to `coefficient · 10 ^ exponent`.

The smallest double is above 10⁻³²⁴ and the largest below 10³⁰⁹, so an exponent far beyond these
bounds decides the answer by itself. -/
def ofDecimal (negative : Bool) (coefficient : Nat) (exponent : Int) : Double :=
  if coefficient = 0 then .finite negative 0
  else if 310 < exponent then .infinity negative
  else if 0 ≤ exponent then ofRatio negative (coefficient * tenTo exponent.toNat) 1
  else if exponent < -(coefficient.log2 + 330 : Int) then .finite negative 0
  else ofRatio negative coefficient (tenTo (-exponent).toNat)

def isFinite : Double → Bool
  | .finite .. => true
  | _ => false

def isWhole : Double → Bool
  | .finite _ units => units % unitsPerOne == 0
  | _ => false

def truncate? : Double → Option Int
  | .finite negative units =>
    let whole : Int := (units / unitsPerOne : Nat)
    some (if negative then -whole else whole)
  | _ => none

def scale (d : Double) (factor : Nat) : Double :=
  match d with
  | .finite negative units => ofRatio negative (units * factor) unitsPerOne
  | d => d

end Double

end Allowance
