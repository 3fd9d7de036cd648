/-! # Actions and effects

A wallet can be asked for four actions. A permission allows or denies one of them. Each has one
name in documents and requests.
-/

namespace Allowance

inductive Action
  | transfer
  | signMessage
  | smartContract
  | deployContract
  deriving DecidableEq

namespace Action

def all : List Action := [transfer, signMessage, smartContract, deployContract]

def word : Action → String
  | transfer => "TRANSFER"
  | signMessage => "SIGN_MESSAGE"
  | smartContract => "SMART_CONTRACT"
  | deployContract => "DEPLOY_CONTRACT"

def ofWord? (s : String) : Option Action := all.find? (·.word == s)

/-- What it means to block an action, in a parent's words. -/
def description : Action → String
  | deployContract => "Deploying new smart contracts"
  | smartContract => "Interacting with smart contracts"
  | signMessage => "Signing arbitrary messages"
  | transfer => "Sending funds"

/-- The actions that are denied to every child, whatever the parent chose. -/
def mandatory : List Action := [deployContract, smartContract]

end Action

inductive Effect
  | allow
  | deny
  deriving DecidableEq

namespace Effect

def all : List Effect := [allow, deny]

def word : Effect → String
  | allow => "ALLOW"
  | deny => "DENY"

def ofWord? (s : String) : Option Effect := all.find? (·.word == s)

end Effect

inductive Comparator
  | equals
  | greaterThan
  | lessThan
  | includedIn
  | notIncludedIn
  deriving DecidableEq

namespace Comparator

def all : List Comparator := [equals, greaterThan, lessThan, includedIn, notIncludedIn]

def word : Comparator → String
  | equals => "EQUALS"
  | greaterThan => "GREATER_THAN"
  | lessThan => "LESS_THAN"
  | includedIn => "INCLUDED_IN"
  | notIncludedIn => "NOT_INCLUDED_IN"

def ofWord? (s : String) : Option Comparator := all.find? (·.word == s)

end Comparator

end Allowance
