import Allowance.Decision
import Allowance.Document.Basic
import Allowance.Request

/-! # Evaluating requests

Every request is decided here, by the first rule that applies: outside its validity window a
document denies; a permission that denies the action on the chain beats any that allows it; the
first permission that allows it does so if all its conditions hold; and what no permission covers
is denied. A condition whose input the request does not carry is skipped.
-/

namespace Allowance

def denyUnless (holds : Bool) (cause : Denial) : Option Denial := if holds then none else some cause

namespace Condition

def checkValue (c : Condition) (value : Number) : Option Denial :=
  match c.test with
  | .lessThan n => denyUnless (!n.le value) (.aboveLimit value n)
  | .greaterThan n => denyUnless (!value.le n) (.belowMinimum value n)
  | .equalsNumber n => denyUnless (value.same n) (.notExact n)
  | .equalsText s =>
    match Text.readDouble? s with
    | some d => denyUnless (value.same (.double d)) (.notExact (.double d))
    | none => some (.unsupported c)
  | .includedIn _ => some (.unsupported c)
  | .notIncludedIn _ => some (.unsupported c)

def checkAddress (c : Condition) (address : String) (role : AddressRole) : Option Denial :=
  let key := Address.key address
  match c.test with
  | .includedIn listed =>
    denyUnless ((listed.map Address.key).contains key) (.addressNotListed role)
  | .notIncludedIn listed =>
    denyUnless (!(listed.map Address.key).contains key) (.addressListed role)
  | .equalsText s => denyUnless (key == Address.key s) (.otherAddress role)
  | .equalsNumber _ => some (.unsupported c)
  | .greaterThan _ => some (.unsupported c)
  | .lessThan _ => some (.unsupported c)

def argumentNumber (argument : String) (passes : Number → Bool) : Bool :=
  match Text.readDouble? argument with
  | some d => passes (.double d)
  | none => false

def argumentPasses (test : Test) (argument : String) : Bool :=
  match test with
  | .includedIn listed => listed.contains argument
  | .notIncludedIn listed => !listed.contains argument
  | .equalsText s => argument == s
  | .equalsNumber n => argumentNumber argument (·.same n)
  | .lessThan n => argumentNumber argument (·.lt n)
  | .greaterThan n => argumentNumber argument (n.lt ·)

def checkArgument (c : Condition) (index : Nat) (argument : String) : Option Denial :=
  denyUnless (argumentPasses c.test argument) (.argumentFails index argument c)

/-- Checks a condition; nothing if it holds, or if the request lacks its input. -/
def check (c : Condition) (r : Request) : Option Denial :=
  match c.resource with
  | .value => r.valueUsd.bind c.checkValue
  | .recipient => r.recipient.bind fun address => c.checkAddress address .recipient
  | .sender => r.sender.bind fun address => c.checkAddress address .sender
  | .argument _ index => (r.arguments.bind (·[index]?)).bind (c.checkArgument index)

end Condition

/-- The different elements of a list in the order of their first places. -/
def firstPlaces (ss : List String) : List String :=
  ss.foldl (fun kept s => if kept.contains s then kept else kept ++ [s]) []

namespace Document

def allowedChains (d : Document) : List String :=
  firstPlaces ((d.permissions.filter (·.effect == .allow)).map (·.chain))

def checkWindow (d : Document) (now : Number) : Option Denial :=
  if d.validFrom.any now.lt then some .notYetValid
  else if d.validTo.any (·.lt now) then some .expired
  else none

def matching (d : Document) (r : Request) : List Permission :=
  d.permissions.filter (·.covers r.chain r.action)

def decide (d : Document) (r : Request) : Decision :=
  let matching := d.matching r
  if matching.any (·.effect == .deny) then .deny (.actionDenied r.action r.chain)
  else match matching.find? (·.effect == .allow) with
    | some permission =>
      match permission.conditions.findSome? (·.check r) with
      | some cause => .deny cause
      | none => .allow
    | none =>
      if d.allowedChains.contains r.chain then .deny (.noPermission r.action r.chain)
      else .deny (.chainNotAllowed r.chain d.allowedChains)

/-- The decision on a request; the validity window counts when the time is given. -/
def evaluate (d : Document) (r : Request) (now : Option Number) : Decision :=
  match now.bind d.checkWindow with
  | some cause => .deny cause
  | none => d.decide r

/-- The decision at a time that is given as any value, which only a document with a validity
window looks at. -/
def evaluateAt (d : Document) (r : Request) (now : Json) : Checked Decision :=
  match now, now.number? with
  | .null, _ => .ok (d.evaluate r none)
  | _, some n => .ok (d.evaluate r (some n))
  | _, none =>
    if d.validFrom.isSome || d.validTo.isSome then misuse .wrongKind else .ok (d.evaluate r none)

end Document

end Allowance
