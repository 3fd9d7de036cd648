import Allowance.Registry.Record

/-! # Drafts and changes

A new policy starts from a draft, and a stored one takes changes. Both bring values of any kind,
which are brought into the form of a record: chains become a set, addresses a set of keys, and
the mandatory actions join the blocked ones.
-/

namespace Allowance

namespace PolicyRecord

def chainSet (v : Json) : Checked (List Json) := do
  Json.members (← v.partsIfAny)

def addressSet (v : Json) : Checked (Option (List Json)) := do
  match v with
  | .null => return none
  | v => return some (Json.distinct ((← (← v.parts).mapM Json.addressKey).map .string))

def blockedSet (blocked : BlockedActions) : Checked (List BlockedEntry) := do
  let entries ← blocked.entries
  return entries ++ (Action.mandatory.filter fun a => !BlockedEntry.holds entries a).map .action

end PolicyRecord

structure Draft where
  name : Json := .string "Child Allowance Policy"
  usdLimit : Json := .null
  restrictToBase : Json := .bool false
  allowedChains : Json := .array []
  allowedAddresses : Json := .null
  blockedActions : BlockedActions := .ofActions Action.mandatory
  allowSignMessages : Json := .bool false
  isActive : Json := .bool true

def Draft.toRecord (d : Draft) (parent id createdAt : Json) : Checked PolicyRecord := do
  let allowedChains ← PolicyRecord.chainSet d.allowedChains
  let allowedAddresses ← PolicyRecord.addressSet d.allowedAddresses
  let blockedActions ← PolicyRecord.blockedSet d.blockedActions
  return {
    id, parent, allowedChains, allowedAddresses, blockedActions, createdAt
    name := d.name
    child := .null
    usdLimit := d.usdLimit
    restrictToBase := d.restrictToBase
    allowSignMessages := d.allowSignMessages
    isActive := d.isActive
    document := none
    updatedAt := createdAt }

/-- New values for some fields of a policy. `fixed` names fields that are asked to change but
cannot. -/
structure Changes where
  name : Option Json := none
  usdLimit : Option Json := none
  restrictToBase : Option Json := none
  allowedChains : Option Json := none
  allowedAddresses : Option Json := none
  blockedActions : Option BlockedActions := none
  allowSignMessages : Option Json := none
  isActive : Option Json := none
  fixed : List String := []

namespace Changes

/-- The names of the changed fields that the document depends on. -/
def compiledFields (c : Changes) : List String :=
  (if c.usdLimit.isSome then ["usd_limit"] else []) ++
  (if c.restrictToBase.isSome then ["restrict_to_base"] else []) ++
  (if c.allowedChains.isSome then ["allowed_chains"] else []) ++
  (if c.allowedAddresses.isSome then ["allowed_addresses"] else []) ++
  (if c.blockedActions.isSome then ["blocked_actions"] else []) ++
  (if c.allowSignMessages.isSome then ["allow_sign_messages"] else [])

def fields (c : Changes) : List String :=
  ((if c.name.isSome then ["name"] else []) ++ (if c.isActive.isSome then ["is_active"] else []) ++
    c.compiledFields).mergeSort (· ≤ ·)

/-- A record after the changes, its document aside. -/
def apply (c : Changes) (p : PolicyRecord) : Checked PolicyRecord := do
  let allowedChains ← match c.allowedChains with
    | some v => PolicyRecord.chainSet v
    | none => .ok p.allowedChains
  let allowedAddresses ← match c.allowedAddresses with
    | some v => PolicyRecord.addressSet v
    | none => .ok p.allowedAddresses
  let blockedActions ← match c.blockedActions with
    | some v => PolicyRecord.blockedSet v
    | none => .ok p.blockedActions
  return { p with
    allowedChains, allowedAddresses, blockedActions
    name := c.name.getD p.name
    usdLimit := c.usdLimit.getD p.usdLimit
    restrictToBase := c.restrictToBase.getD p.restrictToBase
    allowSignMessages := c.allowSignMessages.getD p.allowSignMessages
    isActive := c.isActive.getD p.isActive }

end Changes

end Allowance
