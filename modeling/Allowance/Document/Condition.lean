import Allowance.Json.Access

/-! # Conditions

A condition compares one input of a request with a reference. The inputs are the value, the two
addresses and the arguments, which are numbered from zero. The comparator and the kind of the
reference belong together, so a condition holds one of six tests.

The resource of an argument is `ARGUMENTS[n]`. The digits of n may be those of any script and may
start with zeros, and a line feed may follow the bracket; the spelling is kept.
-/

namespace Allowance

open Text

inductive Resource
  | value
  | recipient
  | sender
  | argument (spelling : String) (index : Nat)
  deriving DecidableEq

namespace Resource

def argumentText (index : String) : String := "ARGUMENTS[" ++ index ++ "]"

def argumentDigits? (s : String) : Option (List Char) :=
  let opening := "ARGUMENTS[".toList
  if opening.isPrefixOf s.toList then
    let (ds, after) := (s.toList.drop opening.length).span isDigit
    if !ds.isEmpty && (after == [']'] || after == [']', '\n']) then some ds else none
  else none

def scriptValue (ds : List Char) : Nat := ds.foldl (fun n c => 10 * n + (digit? c).getD 0) 0

def argumentIndex (s : String) : Checked (Option Nat) :=
  match argumentDigits? s with
  | none => .ok none
  | some ds => if maxDigits < ds.length then misuse .badValue else .ok (some (scriptValue ds))

def ofText? (s : String) : Checked (Option Resource) :=
  if s = "VALUE" then .ok (some .value)
  else if s = "TO_ADDRESS" then .ok (some .recipient)
  else if s = "FROM_ADDRESS" then .ok (some .sender)
  else do return (← argumentIndex s).map (.argument s)

def text : Resource → String
  | value => "VALUE"
  | recipient => "TO_ADDRESS"
  | sender => "FROM_ADDRESS"
  | argument spelling _ => spelling

end Resource

inductive Test
  | equalsNumber (n : Number)
  | equalsText (s : String)
  | greaterThan (n : Number)
  | lessThan (n : Number)
  | includedIn (listed : List String)
  | notIncludedIn (listed : List String)
  deriving DecidableEq

namespace Test

def comparator : Test → Comparator
  | equalsNumber _ => .equals
  | equalsText _ => .equals
  | greaterThan _ => .greaterThan
  | lessThan _ => .lessThan
  | includedIn _ => .includedIn
  | notIncludedIn _ => .notIncludedIn

def reference : Test → Json
  | equalsNumber n => .number n
  | equalsText s => .string s
  | greaterThan n => .number n
  | lessThan n => .number n
  | includedIn listed => .ofTexts listed
  | notIncludedIn listed => .ofTexts listed

def listOf (c : Comparator) (reference : Json) : Checked (List String) :=
  match reference with
  | .array items =>
    match Json.texts? items with
    | some listed => .ok listed
    | none => .error (.document (.notSequence c reference))
  | _ => .error (.document (.notSequence c reference))

def numberOf (c : Comparator) (reference : Json) : Checked Number := do
  match ← reference.finite? with
  | some n => return n
  | none => .error (.document (.notNumeric c reference))

def of (c : Comparator) (reference : Json) : Checked Test :=
  match c with
  | .includedIn => (listOf c reference).map includedIn
  | .notIncludedIn => (listOf c reference).map notIncludedIn
  | .greaterThan => (numberOf c reference).map greaterThan
  | .lessThan => (numberOf c reference).map lessThan
  | .equals =>
    match reference with
    | .string s => .ok (equalsText s)
    | v => do
      match ← v.finite? with
      | some n => return equalsNumber n
      | none => .error (.document (.notComparable reference))

end Test

structure Condition where
  resource : Resource
  test : Test
  deriving DecidableEq

namespace Condition

def describe (c : Condition) : String :=
  c.resource.text ++ " " ++ c.test.comparator.word ++ " " ++ c.test.reference.plain

end Condition

end Allowance
