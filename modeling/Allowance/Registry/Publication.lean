import Allowance.Document.Reading
import Allowance.World.State

/-! # Published documents

Signing is decided by published documents alone. They are kept in memory, or in a section of the
state file, under the key of the child's address.
-/

namespace Allowance

namespace Publication

def toJson (p : Publication) : Json := .object [
  ("parentWalletAddress", p.parent),
  ("policy", p.document.toJson)]

def ofJson (v : Json) : Checked Publication := do
  return {
    parent := ← v.required "parentWalletAddress"
    document := ← Document.ofJson (← v.required "policy") }

end Publication

inductive Shelf
  | memory
  | file (path : String)
  deriving DecidableEq

namespace Shelf

def logger : String := "core.policy_store"

def put (shelf : Shelf) (child : Json) (p : Publication) : Step Unit := do
  let key ← child.addressKey
  match shelf with
  | memory => do
    modifyThe World fun w =>
      { w with shelf := w.shelf.filter (fun entry => entry.1 != key) ++ [(key, p)] }
    Step.log .info logger ("stored policy for " ++ Address.short key)
  | file path => do
    State.put path State.publications key p.toJson
    Step.log .info logger ("stored policy for " ++ Address.short key ++ " in " ++ path)

def get? (shelf : Shelf) (child : Json) : Step (Option Publication) := do
  let key ← child.addressKey
  match shelf with
  | memory => return (← getThe World).shelf.lookup key
  | file path =>
    match ← State.get path State.publications key with
    | .null => return none
    | v => return some (← Publication.ofJson v)

def require (shelf : Shelf) (child : Json) : Step Publication := do
  match ← shelf.get? child with
  | some p => return p
  | none => throw (.noPolicy child.plain)

def remove (shelf : Shelf) (child : Json) : Step Unit := do
  let key ← child.addressKey
  match shelf with
  | memory => modifyThe World fun w => { w with shelf := w.shelf.filter (·.1 != key) }
  | file path => do let _ ← State.delete path State.publications key

end Shelf

end Allowance
