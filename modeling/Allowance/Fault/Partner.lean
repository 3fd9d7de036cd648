import Allowance.Json.Display

/-! # Failures of outside services

The wallet service, the payment service and the price source can fail to answer, answer
unexpectedly, or refuse.
-/

namespace Allowance

inductive WalletError
  | notConfigured
  | noKey
  | unreachable (path reason : String)
  | rejected (path body : String)
  | badStatus (status : Int) (path body : String)
  | notJson (path : String)
  | noAddress (answer : Json)
  | noId (answer : Json)
  | noSignature (answer : Json)

def WalletError.message : WalletError → String
  | notConfigured => "WALLET_SERVICE_API_KEY is not configured"
  | noKey => "Wallet service API key not configured"
  | unreachable path reason => "wallet service request to " ++ path ++ " failed: " ++ reason
  | rejected path body => "wallet service rejected " ++ path ++ ": " ++ body
  | badStatus status path body =>
    "wallet service error " ++ Text.intText status ++ " on " ++ path ++ ": " ++ body
  | notJson path => "wallet service returned non-JSON body on " ++ path
  | noAddress answer => "wallet service returned no usable wallet address: " ++ answer.shown
  | noId answer => "wallet service returned no wallet id: " ++ answer.shown
  | noSignature answer => "wallet service sign response missing signature: " ++ answer.shown

inductive PaymentError
  | notConfigured
  | noToken
  | unknownToken
  | notCompleted (status : Json)
  | unreachable (reason : String)
  | badStatus (status : Int) (body : String)

namespace PaymentError

/-- Whether the payment itself is missing, and not only the answer about it. -/
def isRequired : PaymentError → Bool
  | unreachable _ => false
  | badStatus .. => false
  | _ => true

def message : PaymentError → String
  | notConfigured => "Payment processing not configured. Contact administrator."
  | noToken => "Payment token required"
  | unknownToken => "Unknown payment token"
  | notCompleted status => "Payment not completed (status=" ++ status.plain ++ ")"
  | unreachable reason => "payment verification failed: " ++ reason
  | badStatus status body => "Stripe error " ++ Text.intText status ++ ": " ++ body

end PaymentError

inductive PriceError
  | lookupFailed (asset reason : String)
  | unusable (asset : String) (answer : Json)

def PriceError.message : PriceError → String
  | lookupFailed asset reason => "price lookup for " ++ asset ++ " failed: " ++ reason
  | unusable asset answer => "no usable USD price for " ++ asset ++ ": " ++ answer.plain

end Allowance
