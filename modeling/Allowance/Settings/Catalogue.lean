/-! # The catalogue of scopes

Compiled documents consist of five scopes, of which two are optional. The catalogue gives each its
name, its description and whether it is required, so it is also the list of all rules that a child
wallet can come under.
-/

namespace Allowance

structure ScopeEntry where
  name : String
  description : String
  required : Bool
  deriving DecidableEq

namespace ScopeEntry

def transfer : ScopeEntry := ⟨"allowance_transfer", "Allow sending funds", true⟩

def denyDeploy : ScopeEntry :=
  ⟨"deny_deploy", "Block contract deployment for security", true⟩

def denySmartContract : ScopeEntry :=
  ⟨"deny_smart_contract", "Block smart contract interaction for security", true⟩

def blocked : ScopeEntry := ⟨"blocked_actions", "Actions the parent has blocked", false⟩

def signMessages : ScopeEntry :=
  ⟨"sign_messages", "Allow signing messages for verification", false⟩

end ScopeEntry

end Allowance
