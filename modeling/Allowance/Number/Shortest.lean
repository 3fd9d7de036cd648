import Allowance.Number.Double
import Allowance.Text.Numeral

/-! # The shortest decimal of a double

A double is written with the fewest digits that still round to it, and among those with the
digits nearest to it. A decimal rounds to a double when it lies between the midpoints to the two
neighbours; the midpoints themselves count when the last of the 53 bits is zero.

Lengths are compared in quarters of a unit, so that the midpoints are whole numbers.
-/

namespace Allowance

open Text

namespace Double

structure Shortest where
  coefficient : Nat
  exponent : Int
  deriving DecidableEq

def midpoints (units : Nat) : Nat × Nat :=
  let gap := twoTo (excessBits units)
  let lower := if units = twoTo 52 * gap && 1 < gap then gap else 2 * gap
  (4 * units - lower, 4 * units + 2 * gap)

def roundsTo (units coefficient : Nat) (exponent : Int) : Bool :=
  let num := coefficient * tenTo exponent.toNat * (4 * unitsPerOne)
  let den := tenTo (-exponent).toNat
  let (low, high) := midpoints units
  if (units / twoTo (excessBits units)) % 2 == 0 then low * den ≤ num && num ≤ high * den
  else low * den < num && num < high * den

/-- The power of ten of the first digit of a magnitude that is not zero.

Ten to the 400th is beyond the reciprocal of every double, so the scaled magnitude keeps all the
digits before its point that it needs. -/
def leadingPower (units : Nat) : Int :=
  (digits (units * tenTo 400 / unitsPerOne)).length - 401

/-- The decimals next to a magnitude on the grid of a power of ten, the lower one first, and
whether the upper one is nearer. -/
def neighbours (units : Nat) (exponent : Int) : Nat × Bool :=
  let num := units * tenTo (-exponent).toNat
  let den := unitsPerOne * tenTo exponent.toNat
  let below := num / den
  (below, below + 1 == roundHalfEven num den)

/-- The decimal of a given power of ten that rounds to the double, the nearest if there are two. -/
def onGrid? (units : Nat) (exponent : Int) : Option Shortest :=
  let (below, upperFirst) := neighbours units exponent
  let order := if upperFirst then [below + 1, below] else [below, below + 1]
  (order.find? fun c => roundsTo units c exponent).map fun c => ⟨c, exponent⟩

def stripZeros : Nat → Shortest → Shortest
  | 0, s => s
  | n + 1, s =>
    if s.coefficient % 10 = 0 && s.coefficient != 0 then
      stripZeros n ⟨s.coefficient / 10, s.exponent + 1⟩
    else s

/-- The shortest decimal of a magnitude that is not zero. Seventeen digits always suffice. -/
def shortest (units : Nat) : Shortest :=
  let power := leadingPower units
  let grids := (List.range 17).map fun (n : Nat) => power - n
  let found := (grids.findSome? (onGrid? units)).getD ⟨0, 0⟩
  stripZeros 20 found

/-- The text of a magnitude whose digits are `ds`, the first one at the given power of ten.

The point stands among the digits when the power is at least −4 and below 16, and a fraction is
always shown; otherwise an exponent of two digits or more follows the first digit. -/
def magnitudeText (ds : List Char) (power : Int) : List Char :=
  if -4 ≤ power && power < 16 then
    if power < 0 then '0' :: '.' :: (List.replicate (-power - 1).toNat '0' ++ ds)
    else
      let whole := power.toNat + 1
      let padded := ds ++ List.replicate (whole - ds.length) '0'
      let fraction := padded.drop whole
      padded.take whole ++ '.' :: (if fraction.isEmpty then ['0'] else fraction)
  else
    let mantissa := match ds with
      | [] => []
      | [d] => [d]
      | d :: rest => d :: '.' :: rest
    let exponent := digits power.natAbs
    mantissa ++ 'e' :: (if power < 0 then '-' else '+') ::
      (if exponent.length < 2 then '0' :: exponent else exponent)

def text : Double → String
  | .nan => "nan"
  | .infinity negative => if negative then "-inf" else "inf"
  | .finite negative units =>
    let magnitude :=
      if units = 0 then ['0', '.', '0']
      else
        let decimal := shortest units
        let ds := digits decimal.coefficient
        magnitudeText ds (decimal.exponent + ds.length - 1)
    String.ofList (if negative then '-' :: magnitude else magnitude)

end Double

end Allowance
