import Allowance.Config
import Allowance.Evaluation
import Allowance.Registry.Changes
import Allowance.Registry.Publication

/-! # The registry of policies

The registry stores a parent's policies, links children to them, and publishes the document of a
policy for the child it is linked to. A policy governs at most one child and a child has at most
one policy. Every change builds a new record and, where the document depends on it, a new
document; if that fails the stored record stays as it was.
-/

namespace Allowance

/-- Where a registry keeps its state and publishes documents, and what it compiles for. -/
structure Registry where
  path : String
  shelf : Shelf
  partner : Json := .string defaultPartner
  defaultChains : Json := Allowance.defaultChains

def Json.recordKey : Json → Checked String
  | .string s => .ok s
  | v => if v.isScalar then .ok (v.write none) else misuse .wrongKind

namespace Registry

def ofConfig (config : Config) : Registry where
  path := config.statePath
  shelf := .file config.statePath
  partner := .string config.partner

def logger : String := "core.policy_registry"

def compile (r : Registry) (p : PolicyRecord) : Checked Document :=
  p.options.compile r.partner r.defaultChains

def save (r : Registry) (p : PolicyRecord) : Step Unit := do
  let record ← p.toJson
  State.put r.path State.policies (← p.id.recordKey) record

/-- Publishes the document of a policy that is linked to a child, or withdraws it if the policy is
not active. -/
def publish (r : Registry) (p : PolicyRecord) : Step Unit := do
  match p.child with
  | .null => return ()
  | child =>
    match p.document with
    | some document =>
      if p.isActive.truthy then r.shelf.put child { parent := p.parent, document }
      else r.shelf.remove child
    | none => r.shelf.remove child

/-- What is stored under the id of a policy, null if nothing is. Only texts are keys. -/
def stored (r : Registry) (id : Json) : Step Json := do
  match id with
  | .string key => State.get r.path State.policies key
  | id =>
    let _ ← State.get r.path State.policies ""
    if id.isScalar then return .null else throw (.misuse .wrongKind)

def get (r : Registry) (id : Json) : Step PolicyRecord := do
  match ← r.stored id with
  | .null => throw (.noRecord id)
  | v => PolicyRecord.ofJson v

def older? (p q : PolicyRecord) : Option Bool :=
  Json.below? (.array [p.createdAt, p.id]) (.array [q.createdAt, q.id])

def list (r : Registry) (parent : Json) : Step (List PolicyRecord) := do
  let records ← State.values r.path State.policies
  let all ← records.mapM fun v => Step.ofChecked (PolicyRecord.ofJson v)
  let owned ← match parent with
    | .null => pure all
    | parent => do
      let key ← parent.addressKey
      let keys ← all.mapM fun p => Step.ofChecked p.parent.addressKey
      pure (((all.zip keys).filter (·.2 == key)).map (·.1))
  match Json.sortedBy? older? owned with
  | some sorted => return sorted
  | none => throw (.misuse .wrongKind)

def link? (r : Registry) (child : Json) : Step (Option LinkRecord) := do
  match ← State.get r.path State.links (← child.addressKey) with
  | .null => return none
  | v => return some (← LinkRecord.ofJson v)

def found? {α : Type} (step : Step α) : Step (Option α) :=
  tryCatch (some <$> step) fun
    | .noRecord _ => return none
    | f => throw f

def childPolicy? (r : Registry) (child : Json) : Step (Option PolicyRecord) := do
  match ← r.link? child with
  | none => return none
  | some link =>
    match ← found? (r.get link.policy) with
    | some p => return some p
    | none =>
      Step.log .warning logger ("link for " ++ Address.short child.plain ++
        " points at missing policy " ++ link.policy.plain)
      return none

def create (r : Registry) (parent : Json) (draft : Draft) : Step PolicyRecord := do
  if !Address.isAddressValue parent then throw (.options (.badParent parent))
  let now ← Step.now
  let blank ← draft.toRecord parent .null (.number now)
  let draft := { blank with id := .string (← Step.freshId) }
  let p := { draft with document := some (← r.compile draft) }
  r.save p
  Step.log .info logger
    ("created policy " ++ p.id.plain ++ " for parent " ++ Address.short parent.plain)
  return p

def recompile (r : Registry) (id : Json) (c : Changes) (p : PolicyRecord) : Step PolicyRecord := do
  if c.compiledFields.isEmpty then return p
  match r.compile p with
  | .ok document => return { p with document := some document }
  | .error (.options e) =>
    Step.log .warning logger ("recompile of policy " ++ id.plain ++
      " failed, keeping previous document: " ++ e.message)
    throw (.options e)
  | .error f => throw f

def update (r : Registry) (id : Json) (c : Changes) : Step PolicyRecord := do
  if !c.fixed.isEmpty then throw (.fixedFields (c.fixed.mergeSort (· ≤ ·)))
  let current ← r.get id
  let changed ← c.apply current
  let now ← Step.now
  let p ← r.recompile id c { changed with updatedAt := .number now }
  r.save p
  r.publish p
  Step.log .info logger ("updated policy " ++ id.plain ++ " (" ++ ", ".intercalate c.fields ++ ")")
  return p

def toggle (r : Registry) (id : Json) (entry : BlockedEntry) : Step PolicyRecord :=
  match entry.mandatory? with
  | some a => throw (.options (.mandatoryAction a))
  | none => do
    let current ← r.get id
    let blocked ← BlockedEntry.toggleEntry current.blockedActions entry
    r.update id { blockedActions := some (.listed blocked) }

def setActive (r : Registry) (id active : Json) : Step PolicyRecord :=
  r.update id { isActive := some active }

def unlink (r : Registry) (child : Json) : Step Unit := do
  let _ ← State.delete r.path State.links (← child.addressKey)
  r.shelf.remove child

def delete (r : Registry) (id : Json) : Step Unit := do
  let p ← r.get id
  match p.child with
  | .null => pure ()
  | child => r.unlink child
  let _ ← State.delete r.path State.policies (← id.recordKey)
  Step.log .info logger ("deleted policy " ++ id.plain)

/-- Takes the child away from the policy it was linked to, unless that is the given policy. -/
def release (r : Registry) (id child : Json) : Step Unit := do
  match ← r.link? child with
  | none => return ()
  | some previous =>
    if previous.policy.same id then return ()
    match ← found? (r.get previous.policy) with
    | none => return ()
    | some other =>
      let now ← Step.now
      r.save { other with child := .null, updatedAt := .number now }

def link (r : Registry) (id child : Json) : Step PolicyRecord := do
  if !Address.isAddressValue child then throw (.options (.badChild child))
  let key ← child.addressKey
  let p ← r.get id
  match p.child with
  | .null => pure ()
  | old => if (← Step.ofChecked old.addressKey) != key then r.unlink old
  r.release id (.string key)
  let now ← Step.now
  let linked := { p with child, updatedAt := .number now }
  r.save linked
  State.put r.path State.links key
    (LinkRecord.toJson { child := .string key, policy := id, parent := p.parent })
  r.publish linked
  Step.log .info logger
    ("linked child " ++ Address.short child.plain ++ " to policy " ++ id.plain)
  return linked

def preflight (r : Registry) (child : Json) (tx : Request) (now : Json) : Step Decision := do
  match ← r.childPolicy? child with
  | none => return .deny .noPolicy
  | some p =>
    match p.document with
    | none => return .deny .noPolicy
    | some document =>
      if !p.isActive.truthy then return .deny .inactive
      match now with
      | .null => return document.evaluate tx (some (← Step.now))
      | now => document.evaluateAt tx now

end Registry

end Allowance
