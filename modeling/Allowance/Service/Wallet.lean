import Allowance.Config
import Allowance.Json.Access
import Allowance.World.Basic

/-! # The wallet service

The wallet service creates wallets and signs transactions for them. No request is repeated: one
that got no answer may still have been carried out. A refusal and a failure are faults.
-/

namespace Allowance

structure WalletClient where
  key : String
  config : WalletConfig

structure CreatedWallet where
  id : String
  address : String
  type : Json

def trimSlashes (url : String) : String :=
  String.ofList (url.toList.reverse.dropWhile (· == '/')).reverse

/-- The first parts of a value, as log lines show it; only texts and arrays have them. -/
def firstParts (v : Json) (count : Nat) : Checked Json :=
  match v with
  | .string s => .ok (.string (String.ofList (s.toList.take count)))
  | .array items => .ok (.array (items.take count))
  | _ => misuse .wrongKind

namespace WalletClient

def logger : String := "tools.wallet_service"

def ofConfig (config : WalletConfig) : Checked WalletClient :=
  match config.apiKey.filter (!·.isEmpty) with
  | some key => .ok { key, config }
  | none => .error (.wallet .notConfigured)

def post (client : WalletClient) (path : String) (body : Json) : Step Json := do
  let headers := [("X-API-Key", client.key), ("Content-Type", "application/json")]
  let url := trimSlashes client.config.baseUrl ++ path
  match ← Step.ask (.post url body headers client.config.timeout) with
  | .unreachable reason => throw (.wallet (.unreachable path reason))
  | .badUrl => throw .badUrl
  | .response status text =>
    if status = 403 then throw (.wallet (.rejected path text))
    if status != 200 && status != 201 then throw (.wallet (.badStatus status path text))
    match Json.read text with
    | .ok v => return v
    | .error .tooDeep => throw (.misuse .tooDeep)
    | .error _ => throw (.wallet (.notJson path))

/-- Creates a wallet under an id of the caller's choice. -/
def create (client : WalletClient) (customId : Json) : Step CreatedWallet := do
  let shown ← firstParts customId 30
  Step.log .info logger ("WalletService: creating pregenerated wallet " ++ shown.plain ++
    " (env=" ++ client.config.environment ++ ")")
  let data ← client.post "/wallets" (.object [
    ("type", .string "EVM"),
    ("pregenId", .object [("customId", customId)])])
  let address ← data.field "address"
  let id ← data.field "id"
  match address with
  | .string address =>
    if !Address.isAddress address then throw (.wallet (.noAddress data))
    if !id.truthy then throw (.wallet (.noId data))
    Step.log .info logger ("WalletService: created wallet " ++ Address.short address)
    let type ← data.field "type"
    return { id := id.plain, address, type := if type.truthy then type else .string "EVM" }
  | _ => throw (.wallet (.noAddress data))

def sign (client : WalletClient) (wallet chain transaction : Json) : Step String := do
  let data ← client.post "/transactions/sign" (.object [
    ("walletAddress", wallet),
    ("chainId", chain),
    ("transaction", transaction)])
  let signature ← data.field "signature"
  if !signature.truthy then throw (.wallet (.noSignature data))
  let shown ← Address.shortValue wallet
  Step.log .info logger ("WalletService: signed transaction for " ++ shown.plain ++ " on chain " ++
    chain.plain)
  return signature.plain

end WalletClient

end Allowance
