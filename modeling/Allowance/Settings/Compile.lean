import Allowance.Document.Basic
import Allowance.Settings.Catalogue
import Allowance.Settings.Check

/-! # Compiling settings

Settings become a document that allows transfers on each chain under the parent's conditions and
denies what is always denied. Further scopes deny blocked actions and allow signing where the
settings ask for it.
-/

namespace Allowance

namespace Settings

/-- What the transfer scope says about itself: the limit, the number of approved addresses, and
the chains. -/
def transferDescription (s : Settings) : String :=
  let limit := match s.usdLimit with
    | some n => ["up to $" ++ n.amountText ++ " USD"]
    | none => []
  let addresses := match s.addresses.length with
    | 0 => []
    | 1 => ["to 1 approved address"]
    | n => ["to " ++ Text.natText n ++ " approved addresses"]
  let chains := ", ".intercalate (s.chains.map Chain.label)
  " ".intercalate ([ScopeEntry.transfer.description] ++ limit ++ addresses ++ ["on " ++ chains])

def transferConditions (s : Settings) : List Condition :=
  (match s.usdLimit with
    | some n => [⟨.value, .lessThan n⟩]
    | none => []) ++
  if s.addresses.isEmpty then [] else [⟨.recipient, .includedIn s.addresses⟩]

/-- A scope of the catalogue with the same permissions on every chain for each action. -/
def scopeOf (s : Settings) (entry : ScopeEntry) (effect : Effect) (actions : List Action) : Scope :=
  { name := .string entry.name
    description := .string entry.description
    required := entry.required
    permissions := actions.flatMap fun action =>
      s.chains.map fun chain => { effect, chain, action, conditions := [] } }

def transferScope (s : Settings) : Scope :=
  { name := .string ScopeEntry.transfer.name
    description := .string s.transferDescription
    required := ScopeEntry.transfer.required
    permissions := s.chains.map fun chain =>
      { effect := .allow, chain, action := .transfer, conditions := s.transferConditions } }

def scopes (s : Settings) : List Scope :=
  [ s.transferScope,
    s.scopeOf .denyDeploy .deny [.deployContract],
    s.scopeOf .denySmartContract .deny [.smartContract] ] ++
  (if s.blocked.isEmpty then [] else [s.scopeOf .blocked .deny s.blocked]) ++
  (if s.signing then [s.scopeOf .signMessages .allow [.signMessage]] else [])

def document (s : Settings) (partner : Json) : Document :=
  { partner, validFrom := s.validFrom, validTo := s.validTo, scopes := s.scopes }

end Settings

def defaultPartner : String := "allowance-wallet"

def defaultChains : Json := .ofTexts Chain.namedIds

def Options.compile (o : Options) (partner defaultChains : Json) : Checked Document := do
  return (← o.check defaultChains).document partner

end Allowance
