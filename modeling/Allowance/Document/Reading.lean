import Allowance.Document.Wire
import Allowance.Json.Reader

/-! # Reading documents

A document is read from JSON from the outside in: the fields of a part are looked for before
their contents are examined, and a part is complete before the rules about it are checked.
Scopes, permissions and conditions may be absent; then there are none.
-/

namespace Allowance

def DocumentError.throw {α : Type} (e : DocumentError) : Checked α := .error (.document e)

namespace Json

def requireFields (v : Json) (part : String) : List String → Checked Unit
  | [] => .ok ()
  | name :: rest => do
    if ← v.mentions name then v.requireFields part rest
    else (DocumentError.missing part name).throw

def wordOf {α : Type} (what : String) (words : List String) (ofWord? : String → Option α)
    (v : Json) : Checked α :=
  match v.text?.bind ofWord? with
  | some meaning => .ok meaning
  | none => (DocumentError.unknownWord what v words).throw

end Json

namespace Condition

def typeWord : String := "STATIC"

def ofJson (v : Json) : Checked Condition := do
  v.requireFields "condition" ["resource", "comparator", "reference"]
  let type ← v.fieldOr "type" (.string typeWord)
  let _ ← type.wordOf "condition type" [typeWord] fun s => if s = typeWord then some () else none
  let resource ← v.required "resource"
  let comparator ← v.required "comparator"
  let comparator ← comparator.wordOf "comparator" (Comparator.all.map (·.word)) Comparator.ofWord?
  let reference ← v.required "reference"
  let found ← match resource with
    | .string s => Resource.ofText? s
    | _ => .ok none
  match found with
  | none => (DocumentError.unknownResource resource).throw
  | some resource => return { resource, test := ← Test.of comparator reference }

end Condition

namespace Permission

def ofJson (v : Json) : Checked Permission := do
  v.requireFields "permission" ["effect", "chainId", "type"]
  let effect ← v.required "effect"
  let effect ← effect.wordOf "effect" (Effect.all.map (·.word)) Effect.ofWord?
  let chain ← v.required "chainId"
  let action ← v.required "type"
  let action ← action.wordOf "permission type" (Action.all.map (·.word)) Action.ofWord?
  let conditions ← (← (← v.field "conditions").partsIfAny).mapM Condition.ofJson
  match chain with
  | .string s =>
    if s.isEmpty then (DocumentError.emptyChain chain).throw
    else return { effect, chain := s, action, conditions }
  | _ => (DocumentError.emptyChain chain).throw

def repeated? (seen : List Permission) : List Permission → Option Permission
  | [] => none
  | p :: rest => if seen.any p.overlaps then some p else repeated? (p :: seen) rest

end Permission

namespace Scope

def ofJson (v : Json) : Checked Scope := do
  v.requireFields "scope" ["name"]
  let required ← v.fieldOr "required" (.bool false)
  let name ← v.required "name"
  match required with
  | .bool required =>
    let description ← v.fieldOr "description" (.string "")
    let permissions ← (← (← v.field "permissions").partsIfAny).mapM Permission.ofJson
    match Permission.repeated? [] permissions with
    | some p => (DocumentError.repeatedPermission name p.effect p.action p.chain).throw
    | none => return { name, description, required, permissions }
  | _ => (DocumentError.requiredNotBoolean name required).throw

end Scope

namespace Document

/-- Refuses scopes that share a name. Names that share are listed in increasing order, which only
texts admit. -/
def checkNames (names : List Json) : Checked Unit := do
  let shared := names.filter fun name => 1 < names.countP name.same
  if shared.isEmpty then return ()
  let sorted ← Json.sorted (← Json.members shared)
  match Json.texts? sorted with
  | some names => (DocumentError.duplicateScopes names).throw
  | none => misuse .wrongKind

def timestamp (label : String) (v : Json) : Checked (Option Number) := do
  match v with
  | .null => return none
  | v =>
    match ← v.finite? with
    | some n => return some n
    | none => (DocumentError.badTimestamp label v).throw

def inverted (validFrom validTo : Option Number) : Bool :=
  match validFrom, validTo with
  | some start, some stop => stop.lt start
  | _, _ => false

def ofJson (v : Json) : Checked Document := do
  match v with
  | .object fields =>
    match fields.lookup "partnerId" with
    | none => (DocumentError.missing "policy document" "partnerId").throw
    | some partner =>
      let validFrom ← v.field "validFrom"
      let validTo ← v.field "validTo"
      let scopes ← (← (← v.field "scopes").partsIfAny).mapM Scope.ofJson
      checkNames (scopes.map (·.name))
      let validFrom ← timestamp "valid_from" validFrom
      let validTo ← timestamp "valid_to" validTo
      if inverted validFrom validTo then DocumentError.invertedWindow.throw
      else return { partner, validFrom, validTo, scopes }
  | v => (DocumentError.notObject v).throw

def parse (text : String) (reader : Json.Reader := {}) : Checked Document :=
  match Json.read text reader with
  | .ok v => ofJson v
  | .error (.malformed e) => (DocumentError.notJson e).throw
  | .error e => .error (.ofReadError e)

def same (d e : Document) : Bool := d.toJson.same e.toJson

end Document

end Allowance
