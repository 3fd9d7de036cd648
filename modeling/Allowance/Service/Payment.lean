import Allowance.Service.Wallet

/-! # Payments

The fee for a new wallet is paid when the payment service reports the payment of a token as
succeeded. Without access to the service the fee is waived in development and refused otherwise.
-/

namespace Allowance.PaymentConfig

def logger : String := "tools.payment_tool"

def completed : Json := .string "succeeded"

def lookUp (config : PaymentConfig) (secret : String) (token : Json) : Step Json := do
  let url := trimSlashes config.apiBase ++ "/payment_intents/" ++ token.plain
  match ← Step.ask (.get url (secret, "") config.timeout) with
  | .unreachable reason => throw (.payment (.unreachable reason))
  | .badUrl => throw .badUrl
  | .response status text =>
    if status = 404 then throw (.payment .unknownToken)
    if status != 200 then throw (.payment (.badStatus status text))
    Json.parse text

def verify (config : PaymentConfig) (token : Json) (development : Bool) : Step Unit := do
  match config.secretKey.filter (!·.isEmpty) with
  | none =>
    if development then
      Step.log .info logger "PaymentVerifier: dev mode, skipping payment verification"
    else throw (.payment .notConfigured)
  | some secret =>
    if !token.truthy then throw (.payment .noToken)
    let status ← (← config.lookUp secret token).field "status"
    if !status.same completed then throw (.payment (.notCompleted status))
    let shown ← firstParts token 10
    Step.log .info logger ("PaymentVerifier: payment verified " ++ shown.plain ++ "…")

end Allowance.PaymentConfig
