import Allowance.Number.Reading
import Allowance.Number.Shortest

/-! # Numbers

A number is an integer of any size or a double. The two kinds are told apart where a number is
written, and compared by their exact values: an integer is never rounded first.
-/

namespace Allowance

open Text

inductive Number
  | int (n : Int)
  | double (d : Double)
  deriving DecidableEq

namespace Number

instance : Inhabited Number := ⟨.int 0⟩

instance (n : Nat) : OfNat Number n := ⟨.int n⟩

/-- Where a number stands among all numbers: minus infinity, the finite values in units of
2⁻¹⁰⁷⁴, and infinity. What is not a number stands nowhere. -/
def position? : Number → Option (Int × Int)
  | .int n => some (0, n * Double.unitsPerOne)
  | .double .nan => none
  | .double (.infinity negative) => some (if negative then -1 else 1, 0)
  | .double (.finite negative units) => some (0, if negative then -(units : Int) else units)

/-- Whether one number is below another; what is not a number is below none and above none. -/
def lt (a b : Number) : Bool :=
  match a.position?, b.position? with
  | some (i, x), some (j, y) => i < j || (i == j && x < y)
  | _, _ => false

def le (a b : Number) : Bool :=
  match a.position?, b.position? with
  | some (i, x), some (j, y) => i < j || (i == j && x ≤ y)
  | _, _ => false

def same (a b : Number) : Bool :=
  match a.position?, b.position? with
  | some p, some q => p == q
  | _, _ => false

def isFinite? : Number → Option Bool
  | .int n => if (Double.ofInt n).isFinite then some true else none
  | .double d => some d.isFinite

/-- The nearest double; none for an integer beyond all doubles. -/
def toDouble? : Number → Option Double
  | .int n => let d := Double.ofInt n; if d.isFinite then some d else none
  | .double d => some d

/-- The text of a number, which shows whether it is an integer or a double. Every integer has one,
also if it has more digits than are read: it is the reader that asks how many there are. -/
def text : Number → String
  | .int n => intText n
  | .double d => d.text

/-- The text of a number as an amount: a whole number is shown without a fraction. -/
def amountText (n : Number) : String :=
  match n with
  | .int i => intText i
  | .double d => if d.isWhole then (d.truncate?.map intText).getD d.text else d.text

end Number

end Allowance
