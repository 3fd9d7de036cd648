import Allowance.Number.Basic
import Allowance.Settings.Compile
import Allowance.World.Path

/-! # Configuration

The configuration is read from variables. The value of a variable ends before the first space that
a hash sign follows, and blanks at its ends do not belong to it.
-/

namespace Allowance

abbrev Variables := List (String × String)

namespace Variables

def cutComment : List Char → List Char
  | [] => []
  | ' ' :: '#' :: _ => []
  | c :: rest => c :: cutComment rest

def clean (raw : String) : String := String.ofList (Text.trim (cutComment raw.toList))

def get? (vars : Variables) (name : String) (default : Option String) : Option String :=
  ((vars.lookup name).orElse fun _ => default).map clean

def getD (vars : Variables) (name default : String) : String :=
  (vars.get? name (some default)).getD default

def nonEmpty? (vars : Variables) (name : String) : Option String :=
  (vars.get? name none).filter (!·.isEmpty)

def require (vars : Variables) (name : String) : Checked String :=
  match vars.nonEmpty? name with
  | some value => .ok value
  | none => .error (.missingVariable name)

end Variables

/-- How long services are waited for, in seconds, if nothing else is said. -/
def defaultTimeout : Double := .ofDecimal false 20 0

/-- How the wallet service is reached; without a key nothing is signed. -/
structure WalletConfig where
  apiKey : Option String := none
  baseUrl : String := "https://api.beta.wallet-service.example/v1"
  environment : String := "development"
  timeout : Number := .double defaultTimeout

structure PaymentConfig where
  secretKey : Option String := none
  apiBase : String := "https://api.stripe.com/v1"
  timeout : Number := .double defaultTimeout

structure PriceConfig where
  apiKey : Option String := none
  asset : String := "ethereum"

structure Config where
  partner : String
  wallet : WalletConfig
  payment : PaymentConfig
  price : PriceConfig
  statePath : String

namespace Config

def defaultStatePath : String := "memory/allowance_state.json"

def readTimeout (s : String) : Checked Number :=
  match Text.readDouble? s with
  | some d => .ok (.double d)
  | none => misuse .badValue

def load (vars : Variables) (requireWallet : Bool) : Checked Config := do
  let walletKey := "WALLET_SERVICE_API_KEY"
  let apiKey ← if requireWallet then (vars.require walletKey).map some
    else .ok (vars.nonEmpty? walletKey)
  let wallet : WalletConfig := {}
  let timeout ← readTimeout (vars.getD "WALLET_SERVICE_TIMEOUT" "20")
  return {
    partner := vars.getD "ALLOWANCE_PARTNER_ID" defaultPartner
    wallet := {
      apiKey, timeout
      baseUrl := vars.getD "WALLET_SERVICE_URL" wallet.baseUrl
      environment := vars.getD "WALLET_SERVICE_ENV" wallet.environment }
    payment := { secretKey := vars.nonEmpty? "STRIPE_SECRET_KEY" }
    price := { apiKey := vars.nonEmpty? "COINGECKO_DEMO_API_KEY" }
    statePath := Path.normal (vars.getD "ALLOWANCE_STATE_PATH" defaultStatePath) }

end Config

/-- A time in seconds as whole milliseconds, the fraction dropped. -/
def milliseconds (seconds : Json) : Checked Int :=
  match seconds with
  | .number (.double d) => (Json.number (.double (d.scale 1000))).toInt
  | v => v.toInt.map (· * 1000)

end Allowance
