import Allowance.Document.Condition

/-! # Policy documents

A document holds scopes, a scope permissions, a permission conditions. A permission allows or
denies one action on one chain. The validity window of a document is given in milliseconds of the
epoch, and either end may be open.
-/

namespace Allowance

structure Permission where
  effect : Effect
  chain : String
  action : Action
  conditions : List Condition
  deriving DecidableEq

namespace Permission

def covers (p : Permission) (chain : String) (action : Action) : Bool :=
  p.chain == chain && p.action == action

/-- Whether two permissions have the same effect on the same action and chain. -/
def overlaps (p q : Permission) : Bool := p.covers q.chain q.action && p.effect == q.effect

end Permission

/-- A group of permissions to consent to; a required one cannot be switched off. -/
structure Scope where
  name : Json
  description : Json
  required : Bool
  permissions : List Permission

structure Document where
  partner : Json
  validFrom : Option Number
  validTo : Option Number
  scopes : List Scope

namespace Document

def permissions (d : Document) : List Permission := d.scopes.flatMap (·.permissions)

def scope? (d : Document) (name : Json) : Option Scope := d.scopes.find? (·.name.same name)

end Document

end Allowance
