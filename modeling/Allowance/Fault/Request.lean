import Allowance.Json.Display

/-! # Why a request is refused

A transaction request that lacks a required field, or has an unusable one, is refused with the
first cause that is found.
-/

namespace Allowance

inductive RequestError
  | notObject
  | noChain
  | badChain (v : Json)
  | noAction
  | unknownAction (v : Json)
  | badRecipient (v : Json)
  | badSender (v : Json)
  | badValue (v : Json)
  | badArguments
  | noOracle
  | badWei (v : Json)
  | noWallet
  | badWallet (v : Json)

def RequestError.message : RequestError → String
  | notObject => "transaction request must be an object"
  | noChain => "chainId is required"
  | badChain v => "chainId must be a decimal string, got " ++ v.shown
  | noAction => "type is required"
  | unknownAction v => "unknown transaction type " ++ v.shown
  | badRecipient v => "to is not a valid address: " ++ v.shown
  | badSender v => "from is not a valid address: " ++ v.shown
  | badValue v => "valueUsd must be a non-negative number, got " ++ v.shown
  | badArguments => "arguments must be a list of strings"
  | noOracle => "valueWei given but no price oracle is configured"
  | badWei v => "valueWei must be an integer, got " ++ v.shown
  | noWallet => "walletAddress is required"
  | badWallet v => "walletAddress is not a valid address: " ++ v.shown

end Allowance
