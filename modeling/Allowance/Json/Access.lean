import Allowance.Address
import Allowance.Fault.Basic
import Allowance.Json.Order
import Allowance.Json.Reader

/-! # Taking values apart

Values come from outside and may be of any kind. Each way of looking into one says what it gives
for every kind, and which misuse it is where it gives nothing.
-/

namespace Allowance

namespace Json

def parse (text : String) (reader : Reader := {}) : Checked Json :=
  match read text reader with
  | .ok v => .ok v
  | .error e => .error (.ofReadError e)

def fields? : Json → Option Fields
  | .object fields => some fields
  | _ => none

def field (v : Json) (name : String) : Checked Json :=
  match v with
  | .object fields => .ok ((fields.lookup name).getD .null)
  | _ => misuse .noMember

def fieldOr (v : Json) (name : String) (default : Json) : Checked Json :=
  match v with
  | .object fields => .ok ((fields.lookup name).getD default)
  | _ => misuse .noMember

def required (v : Json) (name : String) : Checked Json :=
  match v with
  | .object fields =>
    match fields.lookup name with
    | some value => .ok value
    | none => misuse .missingField
  | _ => misuse .wrongKind

def occursIn (part : List Char) : List Char → Bool
  | [] => part.isEmpty
  | c :: rest => part.isPrefixOf (c :: rest) || occursIn part rest

/-- Whether a name occurs in a value: among the fields of an object, among the items of an array,
or as a part of a text. -/
def mentions (v : Json) (name : String) : Checked Bool :=
  match v with
  | .object fields => .ok (fields.lookup name).isSome
  | .array items => .ok (items.any (same (.string name)))
  | .string s => .ok (occursIn name.toList s.toList)
  | _ => misuse .wrongKind

/-- What a value consists of: the items of an array, the field names of an object, the characters
of a text. -/
def parts : Json → Checked (List Json)
  | .array items => .ok items
  | .object fields => .ok (fields.map fun field => .string field.1)
  | .string s => .ok (s.toList.map fun c => .string (String.singleton c))
  | _ => misuse .wrongKind

def partsIfAny (v : Json) : Checked (List Json) := if v.truthy then v.parts else .ok []

/-- The different members among values, each of which has to be a scalar. -/
def members (vs : List Json) : Checked (List Json) :=
  if vs.all isScalar then .ok (distinct vs) else misuse .wrongKind

def sorted (vs : List Json) : Checked (List Json) :=
  match sorted? vs with
  | some sorted => .ok sorted
  | none => misuse .wrongKind

/-- The finite number that a value is; a boolean is no number. -/
def finite? : Json → Checked (Option Number)
  | .number n =>
    match n.isFinite? with
    | some true => .ok (some n)
    | some false => .ok none
    | none => misuse .tooLarge
  | _ => .ok none

def text? : Json → Option String
  | .string s => some s
  | _ => none

def texts? (vs : List Json) : Option (List String) := vs.mapM text?

def addressKey : Json → Checked String
  | .string s => .ok (Address.key s)
  | _ => misuse .noMember

def amountText (v : Json) : Checked String :=
  match v.number? with
  | some n =>
    match n.toDouble? with
    | some _ => .ok n.amountText
    | none => misuse .tooLarge
  | none => misuse .wrongKind

/-- The integer that a value denotes: a text is read, a fraction is dropped. -/
def toInt : Json → Checked Int
  | .bool b => .ok (if b then 1 else 0)
  | .number (.int n) => .ok n
  | .number (.double .nan) => misuse .badValue
  | .number (.double d) =>
    match d.truncate? with
    | some n => .ok n
    | none => misuse .tooLarge
  | .string s =>
    match Text.readInt? s with
    | some n => .ok n
    | none => misuse .badValue
  | _ => misuse .wrongKind

def size (v : Json) : Checked Nat := v.parts.map List.length

end Json

namespace Address

def isAddressValue : Json → Bool
  | .string s => isAddress s
  | _ => false

/-- A value as log lines show it where an address is expected: a text is cut, and any other value
is left as it is if it has few parts. -/
def shortValue : Json → Checked Json
  | .string s => .ok (.string (short s))
  | v => do if shownLength < (← v.size) then misuse .wrongKind else return v

end Address

end Allowance
