import Allowance.Number.Basic
import Allowance.Text.Quoted

/-! # JSON values

The fields of an object are kept in the order in which they were added, each name once. Two
values are the same when they stand for the same thing: a boolean stands for one or zero, numbers
are compared by value, and the order of fields does not matter. What is not a number is, as a
value, the same as itself, although it equals no number.
-/

namespace Allowance

inductive Json
  | null
  | bool (b : Bool)
  | number (n : Number)
  | string (s : String)
  | array (items : List Json)
  | object (fields : List (String × Json))

namespace Json

instance : Inhabited Json := ⟨.null⟩

abbrev Fields := List (String × Json)

/-- Gives a field a value: in its place if the name is there, at the end otherwise. -/
def Fields.put : Fields → String → Json → Fields
  | [], name, value => [(name, value)]
  | (key, old) :: rest, name, value =>
    if key = name then (key, value) :: rest else (key, old) :: Fields.put rest name value

def Fields.erase (fields : Fields) (name : String) : Fields :=
  fields.filter fun field => field.1 != name

def int (n : Int) : Json := .number (.int n)

def ofText? : Option String → Json
  | some s => .string s
  | none => .null

def ofTexts (ss : List String) : Json := .array (ss.map .string)

def ofNumber? : Option Number → Json
  | some n => .number n
  | none => .null

def number? : Json → Option Number
  | .bool b => some (.int (if b then 1 else 0))
  | .number n => some n
  | _ => none

/-- Whether a value counts as true: null, zero and whatever is empty count as false. -/
def truthy : Json → Bool
  | .null => false
  | .bool b => b
  | .number n => !n.same 0
  | .string s => !s.isEmpty
  | .array items => !items.isEmpty
  | .object fields => !fields.isEmpty

def present? (v : Json) : Option Json := if v.truthy then some v else none

def kind : Json → String
  | .null => "NoneType"
  | .bool _ => "bool"
  | .number (.int _) => "int"
  | .number (.double _) => "float"
  | .string _ => "str"
  | .array _ => "list"
  | .object _ => "dict"

mutual

def same : Json → Json → Bool
  | .null, .null => true
  | .bool a, .bool b => a == b
  | .bool a, .number n => Number.same (.int (if a then 1 else 0)) n
  | .number n, .bool b => n.same (.int (if b then 1 else 0))
  | .number m, .number n => m == n || m.same n
  | .string s, .string t => s == t
  | .array xs, .array ys => sameItems xs ys
  | .object fields, .object others => fields.length == others.length && sameFields fields others
  | _, _ => false

def sameItems : List Json → List Json → Bool
  | [], [] => true
  | x :: xs, y :: ys => same x y && sameItems xs ys
  | _, _ => false

def sameFields : List (String × Json) → List (String × Json) → Bool
  | [], _ => true
  | (name, value) :: rest, others =>
    (match others.lookup name with
      | some other => same value other
      | none => false) && sameFields rest others

end

mutual

def holdsNan : Json → Bool
  | .number n => n == .double .nan
  | .array items => itemsHoldNan items
  | .object fields => fieldsHoldNan fields
  | _ => false

def itemsHoldNan : List Json → Bool
  | [] => false
  | v :: rest => holdsNan v || itemsHoldNan rest

def fieldsHoldNan : List (String × Json) → Bool
  | [] => false
  | (_, v) :: rest => holdsNan v || fieldsHoldNan rest

end

/-- The values without those that are the same as an earlier one. -/
def distinct (vs : List Json) : List Json :=
  vs.foldl (fun kept v => if kept.any v.same then kept else kept ++ [v]) []

/-- Whether the value can be a member of a set, as arrays and objects cannot. -/
def isScalar : Json → Bool
  | .array _ => false
  | .object _ => false
  | _ => true

end Json

end Allowance
