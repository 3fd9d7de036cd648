import Allowance.Json.Basic

/-! # Sorting values

Texts are ordered by their characters, numbers and booleans by value, arrays by their first
difference. Values of different kinds have no order, nor have nulls and objects, and a list that
holds two such values cannot be sorted.
-/

namespace Allowance.Json

mutual

def below? : Json → Json → Option Bool
  | .string s, .string t => some (s < t)
  | .array xs, .array ys => itemsBelow? xs ys
  | .bool a, .bool b => some (!a && b)
  | .bool a, .number n => some (Number.lt (.int (if a then 1 else 0)) n)
  | .number n, .bool b => some (n.lt (.int (if b then 1 else 0)))
  | .number m, .number n => some (m.lt n)
  | _, _ => none

/-- Whether one array is below another: the first items that differ decide. -/
def itemsBelow? : List Json → List Json → Option Bool
  | _, [] => some false
  | [], _ :: _ => some true
  | x :: xs, y :: ys => if x.same y then itemsBelow? xs ys else below? x y

end

def allOrdered {α : Type} (less? : α → α → Option Bool) : List α → Bool
  | [] => true
  | x :: rest => rest.all (fun y => (less? x y).isSome && (less? y x).isSome) &&
      allOrdered less? rest

/-- The values in increasing order, equal ones as they came; none if some have no order. -/
def sortedBy? {α : Type} (less? : α → α → Option Bool) (xs : List α) : Option (List α) :=
  if allOrdered less? xs then some (xs.mergeSort fun x y => !((less? y x).getD false)) else none

def sorted? (vs : List Json) : Option (List Json) := sortedBy? below? vs

end Allowance.Json
