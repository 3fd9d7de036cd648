import Allowance.Chain
import Allowance.Settings.Basic

/-! # Checking options

Options are checked in a fixed order: the limit, the addresses, the validity window, the chains
and the blocked actions. The first cause that is found refuses them.
-/

namespace Allowance

def OptionsError.throw {α : Type} (e : OptionsError) : Checked α := .error (.options e)

namespace Options

def checkLimit (v : Json) : Checked (Option Number) := do
  match v with
  | .null => return none
  | v =>
    match ← v.finite? with
    | some n => if n.le 0 then (OptionsError.badLimit v).throw else return some n
    | none => (OptionsError.badLimit v).throw

def checkAddress (v : Json) : Checked String :=
  match v with
  | .string s =>
    if Address.isAddress s then .ok (Address.key s) else (OptionsError.badAddress v).throw
  | v => (OptionsError.badAddress v).throw

def sortedTexts (ss : List String) : List String := (ss.mergeSort (· ≤ ·)).eraseDups

/-- The keys of the allowed addresses; a single text is no collection of addresses. -/
def checkAddresses (v : Json) : Checked (List String) := do
  match v with
  | .null => return []
  | .string _ => OptionsError.addressesAreText.throw
  | v => return sortedTexts (← (← v.parts).mapM checkAddress)

def checkTimestamp (label : String) (v : Json) : Checked (Option Number) := do
  match v with
  | .null => return none
  | v =>
    match ← v.finite? with
    | some n => return some n
    | none => (OptionsError.badTimestamp label v).throw

def checkWindow (validFrom validTo : Json) : Checked (Option Number × Option Number) := do
  let start ← checkTimestamp "valid_from" validFrom
  let stop ← checkTimestamp "valid_to" validTo
  match start, stop with
  | some a, some b => if b.lt a then OptionsError.invertedWindow.throw else return (start, stop)
  | _, _ => return (start, stop)

/-- The chain ids among values; any other value refuses them all. -/
def checkChains (vs : List Json) : Checked (List String) := do
  let bad := vs.filter fun v => !Chain.isIdValue v
  if bad.isEmpty then return vs.filterMap Json.text?
  else (OptionsError.badChains (← Json.sorted bad)).throw

/-- The chains that options ask for: Base alone if they are restricted to it, else those that are
named, and the default ones if none is. -/
def chains (o : Options) (defaultChains : Json) : Checked (List String) := do
  if o.restrictToBase.truthy then return [Chain.base.id]
  let requested ← Json.members (← o.allowedChains.partsIfAny)
  let chosen ← if requested.isEmpty then Json.members (← defaultChains.parts) else .ok requested
  Chain.listed (← checkChains chosen)

/-- The blocked actions among entries that are not denied in any case, in their usual order. -/
def extraBlocks (entries : List BlockedEntry) : List Action :=
  Action.all.filter fun a => BlockedEntry.holds entries a && !Action.mandatory.contains a

def check (o : Options) (defaultChains : Json) : Checked Settings := do
  let usdLimit ← checkLimit o.usdLimit
  let addresses ← checkAddresses o.allowedAddresses
  let (validFrom, validTo) ← checkWindow o.validFrom o.validTo
  let chains ← o.chains defaultChains
  let entries ← o.blockedActions.entries
  return {
    chains, usdLimit, addresses
    blocked := extraBlocks entries
    signing := o.allowSignMessages.truthy
    validFrom, validTo }

end Options

end Allowance
