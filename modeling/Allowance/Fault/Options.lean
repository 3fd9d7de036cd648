import Allowance.Action
import Allowance.Json.Display

/-! # Why settings are refused

Settings that cannot be compiled, or name no valid address, are refused with the first cause that
is found.
-/

namespace Allowance

inductive OptionsError
  | badLimit (v : Json)
  | addressesAreText
  | badAddress (v : Json)
  | badTimestamp (label : String) (v : Json)
  | invertedWindow
  | badChains (vs : List Json)
  | badParent (v : Json)
  | badChild (v : Json)
  | noParent
  | mandatoryAction (a : Action)

def OptionsError.message : OptionsError → String
  | badLimit v => "usd_limit must be a positive number, got " ++ v.shown
  | addressesAreText => "allowed_addresses must be a collection of addresses, not a string"
  | badAddress v => "allowed address " ++ v.shown ++ " is not a 0x-prefixed 40-hex-digit address"
  | badTimestamp label v => label ++ " must be an epoch-millisecond number, got " ++ v.shown
  | invertedWindow => "valid_to precedes valid_from"
  | badChains vs => "chain ids must be decimal strings, got " ++ (Json.array vs).shown
  | badParent v => "parent wallet address " ++ v.shown ++ " is not a valid address"
  | badChild v => "child wallet address " ++ v.shown ++ " is not a valid address"
  | noParent => "Invalid parent wallet address"
  | mandatoryAction a => a.word ++ " is a required security rule and cannot be unblocked"

end Allowance
