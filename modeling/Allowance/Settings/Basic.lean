import Allowance.Json.Access

/-! # Settings

A parent's settings arrive as options of any kind. Options that pass all checks are settings: a
limit is a positive number, addresses are keys in increasing order, chains are listed in order,
and only those blocked actions are kept that are not denied in any case.
-/

namespace Allowance

/-- A member of a set of blocked actions: an action, or a value that is none. -/
inductive BlockedEntry
  | action (a : Action)
  | foreign (v : Json)

/-- Blocked actions as they are given: as entries, or as a value with parts that are no actions. -/
inductive BlockedActions
  | listed (entries : List BlockedEntry)
  | value (v : Json)

namespace BlockedActions

def ofActions (actions : List Action) : BlockedActions := .listed (actions.eraseDups.map .action)

def entries : BlockedActions → Checked (List BlockedEntry)
  | listed entries => .ok entries
  | value v => do return (← Json.members (← v.partsIfAny)).map .foreign

end BlockedActions

namespace BlockedEntry

def action? : BlockedEntry → Option Action
  | action a => some a
  | foreign _ => none

def holds (entries : List BlockedEntry) (a : Action) : Bool :=
  entries.any fun entry => entry.action? == some a

def mandatory? (entry : BlockedEntry) : Option Action :=
  entry.action?.filter Action.mandatory.contains

def toggle (entries : List BlockedEntry) (a : Action) : List BlockedEntry :=
  if holds entries a then entries.filter (·.action? != some a) else entries ++ [.action a]

/-- The same for any entry. What is no action is among no actions. -/
def toggleEntry (entries : List BlockedEntry) : BlockedEntry → Checked (List BlockedEntry)
  | action a => .ok (toggle entries a)
  | foreign v => if v.isScalar then .ok (entries ++ [.foreign v]) else misuse .wrongKind

end BlockedEntry

/-- What a parent asks for, unchecked; null stands for what is not given. -/
structure Options where
  usdLimit : Json := .null
  allowedAddresses : Json := .null
  restrictToBase : Json := .bool false
  allowedChains : Json := .null
  blockedActions : BlockedActions := .listed []
  allowSignMessages : Json := .bool false
  validFrom : Json := .null
  validTo : Json := .null

structure Settings where
  chains : List String
  usdLimit : Option Number
  addresses : List String
  blocked : List Action
  signing : Bool
  validFrom : Option Number
  validTo : Option Number
  deriving DecidableEq

end Allowance
