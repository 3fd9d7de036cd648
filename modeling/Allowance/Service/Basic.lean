import Allowance.Registry.Authority
import Allowance.Registry.Basic
import Allowance.Service.Payment
import Allowance.Service.Price

/-! # The service

The service creates wallets for children and signs their transactions. A new wallet is paid for,
its policy compiled and stored, the wallet created and linked; when a later step fails the policy
is deleted again. A transaction is signed only if the published document allows the request that
it amounts to.
-/

namespace Allowance

/-- The registry, and the services that are reached from here. Without a wallet client nothing is
created or signed, and without prices amounts of wei have no value. -/
structure Service where
  registry : Registry
  payment : PaymentConfig
  prices : Option PriceConfig
  wallet : Option WalletClient

structure WalletOrder where
  parent : Json
  restrictToBase : Json
  maxUsd : Json := .null
  allowedAddresses : Json := .null
  policyName : Json := .null
  paymentToken : Json := .null
  development : Json := .bool false

namespace Service

def logger : String := "core.service"

def ofConfig (config : Config) : Service where
  registry := Registry.ofConfig config
  payment := config.payment
  prices := some config.price
  wallet := (WalletClient.ofConfig config.wallet).toOption

def draftOf (order : WalletOrder) : Draft :=
  let blank : Draft := {}
  { blank with
    name := if order.policyName.truthy then order.policyName else blank.name
    usdLimit := order.maxUsd
    restrictToBase := order.restrictToBase
    allowedAddresses := order.allowedAddresses }

def customId (parent : String) (now : Number) : String :=
  "child_" ++ Address.key parent ++ "_" ++ now.text

def createAndLink (s : Service) (client : WalletClient) (parent id : Json) (now : Number) :
    Step (CreatedWallet × PolicyRecord) := do
  let created ← client.create (.string (customId parent.plain now))
  let linked ← s.registry.link id (.string created.address)
  return (created, linked)

def createWallet (s : Service) (order : WalletOrder) : Step Json := do
  if !Address.isAddressValue order.parent then throw (.options .noParent)
  s.payment.verify order.paymentToken order.development.truthy
  match s.wallet with
  | none => throw (.wallet .noKey)
  | some client =>
    let p ← s.registry.create order.parent (draftOf order)
    let now ← Step.now
    let (created, linked) ← tryCatch (s.createAndLink client order.parent p.id now) fun f => do
      Step.log .error logger ("child wallet creation failed for " ++
        Address.short order.parent.plain ++ ", removing policy " ++ p.id.plain)
      s.registry.delete p.id
      throw f
    match linked.document with
    | none => throw (.misuse .noMember)
    | some document =>
      return .object [
        ("success", .bool true),
        ("walletAddress", .string created.address),
        ("walletId", .string created.id),
        ("policyId", linked.id),
        ("allowedChains", .ofTexts document.allowedChains),
        ("usdLimit", linked.usdLimit)]

/-- The first of two values that does not count as false, or else the second. -/
def firstPresent (v w : Json) : Json := if v.truthy then v else w

def valueOfWei (s : Service) (wei : Json) : Step Json := do
  match s.prices with
  | none => throw (.request .noOracle)
  | some prices =>
    match wei.toInt with
    | .ok amount => return .number (.double (← prices.weiToUsd (.int amount)))
    | .error (.misuse .tooLarge) => throw (.misuse .tooLarge)
    | .error _ => throw (.request (.badWei wei))

def recipientOf (payload : Json) : Checked Json := do
  let recipient ← payload.field "to"
  return if recipient.truthy && !recipient.same (.string "0x") then recipient else .null

/-- The request that a payload amounts to. Its action is inferred where it is not given. -/
def requestOf (s : Service) (payload : Json) : Step Request := do
  let recipient ← recipientOf payload
  let given := firstPresent (← payload.field "transactionType") (← payload.field "type")
  let action ←
    if given.truthy then pure given
    else do pure (Json.string (← Request.classify recipient (← payload.field "data")).word)
  let usd ← payload.field "valueUsd"
  let wei ← payload.field "valueWei"
  let value ← match usd, wei with
    | .null, .null => pure Json.null
    | .null, wei => s.valueOfWei wei
    | usd, _ => pure usd
  Request.ofJson (.object [
    ("chainId", ← payload.field "chainId"),
    ("type", action),
    ("to", recipient),
    ("valueUsd", value),
    ("from", ← payload.field "from"),
    ("arguments", ← payload.field "arguments")])

/-- The transaction to sign: the one that a payload carries, or else its own fields. -/
def transactionOf (payload : Json) : Checked Json := do
  let transaction ← payload.field "transaction"
  if transaction.truthy then return transaction
  let fields ← ["to", "data", "valueWei"].mapM fun name => do
    return (name, ← payload.field name)
  return .object (fields.filter fun (_, v) => !v.same .null)

def policyFields : Option Publication → Json.Fields
  | none => []
  | some p => [("policy", .object [
    ("partnerId", p.document.partner),
    ("allowedChains", .ofTexts (p.document.allowedChains.map Chain.label))])]

/-- Has an allowed transaction signed. A refusal by the wallet service turns into a denial. -/
def signAllowed (client : WalletClient) (wallet payload : Json) (r : Request) :
    Step (Decision × Json.Fields) := do
  let transaction ← transactionOf payload
  tryCatch (do
      let signature ← client.sign wallet (.string r.chain) transaction
      return (.allow, [("signature", .string signature)])) fun
    | .wallet (.rejected path body) =>
      return (.deny (.rejected (WalletError.rejected path body).message), [])
    | f => throw f

def sign (s : Service) (payload : Json) : Step Json := do
  let wallet ← payload.field "walletAddress"
  if !wallet.truthy then throw (.request .noWallet)
  if !Address.isAddressValue wallet then throw (.request (.badWallet wallet))
  let r ← s.requestOf payload
  let (decision, publication) ← s.registry.shelf.authorize wallet r
  let (decision, signature) ← match decision, s.wallet with
    | .allow, some client => signAllowed client wallet payload r
    | decision, _ => pure (decision, [])
  return .object ([("success", .bool decision.allowed)] ++ decision.fields ++ signature ++
    policyFields publication)

def preflight (s : Service) (child payload : Json) : Step Decision := do
  s.registry.preflight child (← s.requestOf payload) .null

end Service

end Allowance
