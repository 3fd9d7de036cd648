import Allowance.Json.Access
import Allowance.World.Basic

/-! # The state file

The state is one JSON object in one file. Its sections map keys to records, in the order in which
the keys were first put. Every operation reads the whole file, and every change writes it anew.
A missing file stands for empty sections, and so does a missing section.
-/

namespace Allowance.State

def policies : String := "policies"

def links : String := "links"

def publications : String := "wallet_policies"

def sections : List String := [policies, links, publications]

/-- Fields with an empty section added for each one that is missing. -/
def withSections (fields : Json.Fields) : Json.Fields :=
  sections.foldl (fun fields name =>
    if (fields.lookup name).isSome then fields else fields.put name (.object [])) fields

/-- The state that a file holds; a file that holds no object has no state. -/
def ofContent (content : Content) : Checked Json.Fields := do
  match ← content.toJson with
  | .object fields => return withSections fields
  | _ => misuse .noMember

def load (path : String) : Step Json.Fields := do
  let w ← getThe World
  match ← w.disk.open? path with
  | some content => ofContent content
  | none => return withSections []

def save (path : String) (state : Json) : Step Unit :=
  modifyThe World fun w => { w with disk := w.disk.write path (.state state) }

def sectionOf (state : Json.Fields) (name : String) : Json :=
  (state.lookup name).getD (.object [])

def get (path name key : String) : Step Json := do
  (sectionOf (← load path) name).field key

def put (path name key : String) (record : Json) : Step Unit := do
  let state ← load path
  match sectionOf state name with
  | .object records =>
    save path (.object (state.put name (.object (Json.Fields.put records key record))))
  | _ => throw (.misuse .wrongKind)

def delete (path name key : String) : Step Bool := do
  let state ← load path
  let found := sectionOf state name
  if ← found.mentions key then
    match found with
    | .object records =>
      save path (.object (state.put name (.object (Json.Fields.erase records key))))
      return true
    | _ => throw (.misuse .wrongKind)
  else return false

def values (path name : String) : Step (List Json) := do
  match sectionOf (← load path) name with
  | .object records => return records.map (·.2)
  | _ => throw (.misuse .noMember)

end Allowance.State
