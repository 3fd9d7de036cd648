import Allowance.Decimal.Arithmetic
import Allowance.Decimal.Text
import Allowance.Json.Access

/-! # Ether, wei and dollars

One ether is 10¹⁸ wei. Amounts of wei are converted to dollars and back at a price in dollars per
ether, and are written and read as ether. Dollars are rounded to cents; wei are never rounded up.
Amounts and prices may be given as any value: as a decimal they are what their text denotes.
-/

namespace Allowance.Ether

def weiPerEther : Decimal := .ofInt (tenTo 18)

def decimalOf (v : Json) : Checked Decimal :=
  match Decimal.read? v.plain with
  | some d => .ok d
  | none => misuse .undefinedDecimal

def centExponent : Int := -2

/-- An amount of wei in dollars, to the cent, before it becomes a double. -/
def weiToCents (wei : Int) (price : Json) : Checked Decimal := do
  let ether ← (Decimal.ofInt wei).div weiPerEther
  let dollars ← ether.mul (← decimalOf price)
  dollars.align centExponent .halfEven

def weiToUsd (wei price : Json) : Checked Double := do
  return (← weiToCents (← wei.toInt) price).toDouble

def usdToWei (usd price : Json) : Checked Int := do
  let price ← decimalOf price
  if ← price.nonPositive then .error (.amount .priceNotPositive)
  else
    let ether ← (← decimalOf usd).div price
    (← ether.mul weiPerEther).toInt

def defaultPlaces : Int := 6

def negatedPlaces : Json → Checked Int
  | .number (.int n) => .ok (-n)
  | .bool b => .ok (if b then -1 else 0)
  | _ => misuse .wrongKind

def weiText (wei places : Json) : Checked String := do
  let ether ← (Decimal.ofInt (← wei.toInt)).div weiPerEther
  let exponent ← Decimal.powerExponent (← negatedPlaces places)
  return (← ether.align exponent .down).reduce.text

def parseEther (ether : Json) : Checked Int :=
  match Decimal.read? ether.plain with
  | none => .error (.amount (.notAmount ether))
  | some amount => do
    if ← amount.isNegative then .error (.amount .negative)
    else (← amount.mul weiPerEther).toInt

end Allowance.Ether
