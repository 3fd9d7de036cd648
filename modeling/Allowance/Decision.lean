import Allowance.Chain
import Allowance.Document.Condition
import Allowance.Number.Places

/-! # Decisions

A request is allowed, or denied for one cause. Each cause has a reason in words and a code; the
codes are fewer than the reasons.
-/

namespace Allowance

inductive AddressRole
  | recipient
  | sender
  deriving DecidableEq

def AddressRole.word : AddressRole → String
  | recipient => "Recipient"
  | sender => "Sender"

inductive Denial
  | notYetValid
  | expired
  | actionDenied (a : Action) (chain : String)
  | chainNotAllowed (chain : String) (allowed : List String)
  | noPermission (a : Action) (chain : String)
  | aboveLimit (value limit : Number)
  | belowMinimum (value minimum : Number)
  | notExact (required : Number)
  | addressNotListed (role : AddressRole)
  | addressListed (role : AddressRole)
  | otherAddress (role : AddressRole)
  | argumentFails (index : Nat) (argument : String) (c : Condition)
  | unsupported (c : Condition)
  | noPolicy
  | inactive
  | rejected (message : String)
  deriving DecidableEq

def Number.centsText (n : Number) : String := (n.toDouble?.getD .nan).centsText

namespace Denial

def reason : Denial → String
  | notYetValid => "Policy is not valid yet"
  | expired => "Policy has expired"
  | actionDenied a chain =>
    "Action \"" ++ a.word ++ "\" is denied by policy on " ++ Chain.label chain
  | chainNotAllowed chain allowed =>
    let names := if allowed.isEmpty then "none" else ", ".intercalate (allowed.map Chain.label)
    "Chain " ++ Chain.label chain ++ " is not allowed by this policy. Allowed chains: " ++ names
  | noPermission a chain =>
    "No permission for action type \"" ++ a.word ++ "\" on " ++ Chain.label chain
  | aboveLimit value limit =>
    "Transaction value $" ++ value.centsText ++ " exceeds the $" ++ limit.amountText ++ " USD limit"
  | belowMinimum value minimum =>
    "Transaction value $" ++ value.centsText ++ " must be greater than $" ++ minimum.amountText ++
      " USD"
  | notExact required => "Transaction value must equal $" ++ required.amountText ++ " USD"
  | addressNotListed role => role.word ++ " address is not in the allowed list"
  | addressListed role => role.word ++ " address is blocked"
  | otherAddress role => role.word ++ " address does not match the required address"
  | argumentFails index argument c =>
    "Argument " ++ Text.natText index ++ " (" ++ Text.quoted argument ++ ") fails " ++ c.describe
  | unsupported c => "Unsupported policy condition: " ++ c.describe
  | noPolicy => "No policy on file for this wallet"
  | inactive => "Permission policy is not active"
  | rejected message => "Wallet service rejected: " ++ message

def code : Denial → String
  | notYetValid => "policy_not_yet_valid"
  | expired => "policy_expired"
  | actionDenied .. => "action_denied"
  | chainNotAllowed .. => "chain_restriction"
  | noPermission .. => "no_permission"
  | aboveLimit .. => "value_limit"
  | belowMinimum .. => "value_minimum"
  | notExact _ => "value_exact"
  | addressNotListed _ => "address_allowlist"
  | addressListed _ => "address_blocklist"
  | otherAddress _ => "address_exact"
  | argumentFails .. => "argument_mismatch"
  | unsupported _ => "unsupported_condition"
  | noPolicy => "policy_not_found"
  | inactive => "policy_inactive"
  | rejected _ => "wallet_service_rejected"

end Denial

inductive Decision
  | allow
  | deny (cause : Denial)
  deriving DecidableEq

namespace Decision

def allowed : Decision → Bool
  | allow => true
  | deny _ => false

def denial? : Decision → Option Denial
  | allow => none
  | deny cause => some cause

def fields : Decision → Json.Fields
  | allow => [("allowed", .bool true)]
  | deny cause => [
    ("allowed", .bool false),
    ("reason", .string cause.reason),
    ("matchedCondition", .string cause.code)]

def toJson (d : Decision) : Json := .object d.fields

end Decision

end Allowance
