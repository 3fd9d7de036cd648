import Allowance.Number.Double
import Allowance.Text.Numeral

/-! # Reading doubles

The text of a double has digits before or after a point, or both, and may have an exponent. The
names of the infinities and of what is not a number stand in any letter case.
-/

namespace Allowance.Text

/-- The exponent at the start of the characters, zero if there is none; a mark without digits is
no exponent. What follows is returned beside it. -/
def takeExponent (cs : List Char) : Int × List Char :=
  match cs with
  | c :: rest =>
    if c = 'e' || c = 'E' then
      let (negative, after) := takeSign rest
      let (ds, after) := spanDigits after
      if ds.isEmpty then (0, cs)
      else
        let n : Int := digitsValue ds
        (if negative then -n else n, after)
    else (0, cs)
  | [] => (0, [])

/-- A decimal read from the start of a text: the digits before the point, those after it, the
exponent, and the characters that follow. -/
structure TakenDecimal where
  whole : List Char
  fraction : List Char
  exponent : Int
  rest : List Char

def takeDecimal? (cs : List Char) : Option TakenDecimal :=
  let (whole, rest) := spanDigits cs
  let (fraction, rest) := match rest with
    | '.' :: after => spanDigits after
    | rest => ([], rest)
  if whole.isEmpty && fraction.isEmpty then none
  else
    let (exponent, rest) := takeExponent rest
    some { whole, fraction, exponent, rest }

def TakenDecimal.scaled (d : TakenDecimal) : Nat × Int :=
  (digitsValue (d.whole ++ d.fraction), d.exponent - d.fraction.length)

def readDouble? (s : String) : Option Double := do
  let (negative, cs) := takeSign (← dropUnderscores false (numeralCore s))
  let name := cs.map Char.toLower
  if name = "inf".toList || name = "infinity".toList then some (.infinity negative)
  else if name = "nan".toList then some .nan
  else
    let decimal ← takeDecimal? cs
    if decimal.rest.isEmpty then
      let (coefficient, exponent) := decimal.scaled
      some (.ofDecimal negative coefficient exponent)
    else none

end Allowance.Text
