import Allowance.Config
import Allowance.Ether
import Allowance.World.Basic

/-! # Prices

The price of an asset in dollars is asked for at most three times, with a pause before each new
attempt. An answer is used if it gives a number that is not zero or negative.
-/

namespace Allowance.PriceConfig

def logger : String := "tools.price_oracle"

/-- The pauses in seconds before the second and the third attempt. -/
def pauses : List Nat := [1, 2]

def connect (config : PriceConfig) : Step Unit :=
  Step.tell (.market (config.apiKey.filter (!·.isEmpty)))

def fetch (config : PriceConfig) : List Nat → Step (Except String Json)
  | [] => do
    match ← Step.askPrice config.asset "usd" with
    | .data v => return .ok v
    | .failure reason => return .error reason
  | pause :: rest => do
    match ← Step.askPrice config.asset "usd" with
    | .data v => return .ok v
    | .failure _ =>
      Step.tell (.sleep (.ofRatio false pause 1))
      config.fetch rest

/-- What an answer gives as the price; an answer that counts as false gives nothing. -/
def priceIn (config : PriceConfig) (answer : Json) : Checked Json := do
  let answer := if answer.truthy then answer else .object []
  (← answer.fieldOr config.asset (.object [])).field "usd"

def usdPrice (config : PriceConfig) : Step Double := do
  match ← config.fetch pauses with
  | .error reason =>
    Step.log .warning logger ("PriceOracle: get_price failed: " ++ reason)
    throw (.price (.lookupFailed config.asset reason))
  | .ok answer =>
    match (← config.priceIn answer).number? with
    | none => throw (.price (.unusable config.asset answer))
    | some n =>
      if n.le 0 then throw (.price (.unusable config.asset answer))
      match n.toDouble? with
      | some d => return d
      | none => throw (.misuse .tooLarge)

def weiToUsd (config : PriceConfig) (wei : Json) : Step Double := do
  let price ← config.usdPrice
  Ether.weiToUsd wei (.number (.double price))

end Allowance.PriceConfig
