import Allowance.Document.Reading
import Allowance.Settings.Compile

/-! # Records

Records are what the state file holds: policies with the document compiled from them, links from
children to policies, and published documents. The file may hold anything, so most fields of a
record take any value. Sets of values are written in increasing order.
-/

namespace Allowance

structure PolicyRecord where
  id : Json
  name : Json
  parent : Json
  child : Json
  usdLimit : Json
  restrictToBase : Json
  allowedChains : List Json
  allowedAddresses : Option (List Json)
  blockedActions : List BlockedEntry
  allowSignMessages : Json
  isActive : Json
  document : Option Document
  createdAt : Json
  updatedAt : Json

def Json.ofDocument? : Option Document → Json
  | some d => d.toJson
  | none => .null

namespace PolicyRecord

/-- The names of blocked actions in increasing order. Values that are no actions have no names. -/
def blockedWords (entries : List BlockedEntry) : Checked (List String) := do
  let words ← entries.mapM fun
    | .action a => .ok a.word
    | .foreign _ => misuse .noMember
  return words.mergeSort (· ≤ ·)

def toJson (p : PolicyRecord) : Checked Json := do
  let chains ← Json.sorted p.allowedChains
  let addresses ← match p.allowedAddresses with
    | some addresses => (Json.sorted addresses).map .array
    | none => .ok .null
  let blocked ← blockedWords p.blockedActions
  return .object [
    ("id", p.id),
    ("name", p.name),
    ("parentWalletAddress", p.parent),
    ("childWalletAddress", p.child),
    ("usdLimit", p.usdLimit),
    ("restrictToBase", p.restrictToBase),
    ("allowedChains", .array chains),
    ("allowedAddresses", addresses),
    ("blockedActions", .ofTexts blocked),
    ("allowSignMessages", p.allowSignMessages),
    ("isActive", p.isActive),
    ("compiledDocument", .ofDocument? p.document),
    ("createdAt", p.createdAt),
    ("updatedAt", p.updatedAt)]

def actionsOf (vs : List Json) : Checked (List Action) := do
  let actions ← vs.mapM fun v =>
    match v.text?.bind Action.ofWord? with
    | some a => .ok a
    | none => misuse .badValue
  return actions.eraseDups

def flag (v : Json) (name : String) (default : Bool) : Checked Json := do
  return .bool (← v.fieldOr name (.bool default)).truthy

def ofJson (v : Json) : Checked PolicyRecord := do
  let addresses ← v.field "allowedAddresses"
  let document ← v.field "compiledDocument"
  let id ← v.required "id"
  let name ← v.required "name"
  let parent ← v.required "parentWalletAddress"
  let child ← v.field "childWalletAddress"
  let usdLimit ← v.field "usdLimit"
  let restrictToBase ← flag v "restrictToBase" false
  let allowedChains ← Json.members (← (← v.field "allowedChains").partsIfAny)
  let allowedAddresses ← match addresses with
    | .null => .ok none
    | addresses => (addresses.parts.bind Json.members).map some
  let blocked ← actionsOf (← (← v.field "blockedActions").partsIfAny)
  let allowSignMessages ← flag v "allowSignMessages" false
  let isActive ← flag v "isActive" true
  let document ← if document.truthy then (Document.ofJson document).map some else .ok none
  let createdAt ← v.required "createdAt"
  let updatedAt ← v.required "updatedAt"
  return {
    id, name, parent, child, usdLimit, restrictToBase, allowedChains, allowedAddresses
    blockedActions := blocked.map .action
    allowSignMessages, isActive, document, createdAt, updatedAt }

def options (p : PolicyRecord) : Options where
  usdLimit := p.usdLimit
  allowedAddresses := match p.allowedAddresses with
    | some addresses => .array addresses
    | none => .null
  restrictToBase := p.restrictToBase
  allowedChains := .array p.allowedChains
  blockedActions := .listed p.blockedActions
  allowSignMessages := p.allowSignMessages

end PolicyRecord

structure LinkRecord where
  child : Json
  policy : Json
  parent : Json

namespace LinkRecord

def toJson (l : LinkRecord) : Json := .object [
  ("childAddress", l.child),
  ("policyId", l.policy),
  ("parentWalletAddress", l.parent)]

def ofJson (v : Json) : Checked LinkRecord := do
  return {
    child := ← v.required "childAddress"
    policy := ← v.required "policyId"
    parent := ← v.required "parentWalletAddress" }

end LinkRecord

end Allowance
