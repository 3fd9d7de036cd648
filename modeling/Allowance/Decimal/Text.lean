import Allowance.Decimal.Basic
import Allowance.Number.Reading

/-! # The text of decimals

A decimal is read with blanks around it and underscores anywhere, in the digits of any script. It
is written without an exponent.
-/

namespace Allowance.Decimal

open Text

def maxReadExponent : Int := 999999999999999999

def minReadExponent : Int := -1999999999999999997

/-- The characters of a decimal in ASCII, without underscores and without the blanks around it. -/
def plainDecimal? (s : String) : Option (List Char) :=
  ((trim s.toList).filter (· != '_')).mapM fun c =>
    if c.toNat < 0x80 then some c
    else if isBlank c then some ' '
    else (digit? c).map digitChar

/-- What is not a number may carry digits, which mean nothing. -/
def readNan? (name : List Char) : Option Decimal :=
  let quiet := "nan".toList
  let signaling := "snan".toList
  if quiet.isPrefixOf name && (name.drop quiet.length).all isAsciiDigit then some (.nan false)
  else if signaling.isPrefixOf name && (name.drop signaling.length).all isAsciiDigit then
    some (.nan true)
  else none

def read? (s : String) : Option Decimal := do
  let (negative, cs) := takeSign (← plainDecimal? s)
  let name := cs.map Char.toLower
  if name = "inf".toList || name = "infinity".toList then some (.infinity negative)
  else match readNan? name with
    | some d => some d
    | none =>
      let taken ← takeDecimal? cs
      let (coefficient, exponent) := taken.scaled
      let first := if coefficient = 0 then exponent else exponent + digitCount coefficient - 1
      if !taken.rest.isEmpty || maxReadExponent < first || exponent < minReadExponent then none
      else some (.finite negative coefficient exponent)

def text : Decimal → String
  | .finite negative c e =>
    let ds := digits c ++ List.replicate e.toNat '0'
    let places := (-e).toNat
    let padded := List.replicate (places + 1 - ds.length) '0' ++ ds
    let whole := padded.length - places
    let magnitude :=
      if places = 0 then ds else padded.take whole ++ '.' :: padded.drop whole
    String.ofList (if negative then '-' :: magnitude else magnitude)
  | .infinity negative => if negative then "-Infinity" else "Infinity"
  | .nan _ => "NaN"

end Allowance.Decimal
