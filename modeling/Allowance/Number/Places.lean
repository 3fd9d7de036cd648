import Allowance.Number.Basic

/-! # Amounts with two places

Amounts in messages have two places behind the point. The exact value of the double is rounded,
a half to the even neighbour.
-/

namespace Allowance

open Text

def centPlaces : Nat := 2

def fixedText (places n : Nat) : List Char :=
  let ds := digits n
  let padded := List.replicate (places + 1 - ds.length) '0' ++ ds
  let whole := padded.length - places
  if places = 0 then padded else padded.take whole ++ '.' :: padded.drop whole

def Double.centsText : Double → String
  | .finite negative units =>
    let cents := fixedText centPlaces (roundHalfEven (units * tenTo centPlaces) unitsPerOne)
    String.ofList (if negative then '-' :: cents else cents)
  | d => d.text

end Allowance
