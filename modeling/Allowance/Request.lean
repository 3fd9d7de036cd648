import Allowance.Chain
import Allowance.Text.Capital

/-! # Transaction requests

A request names the chain and the action, and gives what is known of the recipient, the value, the
sender and the arguments. The chain may be given as an integer, and the action in any letter case.
-/

namespace Allowance

structure Request where
  chain : String
  action : Action
  recipient : Option String
  valueUsd : Option Number
  sender : Option String
  arguments : Option (List String)
  deriving DecidableEq

def Action.inAnyCase? (s : String) : Option Action := (Text.asciiCapitals? s).bind ofWord?

def RequestError.throw {α : Type} (e : RequestError) : Checked α := .error (.request e)

namespace Request

def checkChain (v : Json) : Checked String :=
  let v := match v with
    | .number (.int n) => Json.string (Text.intText n)
    | v => v
  if !v.truthy then RequestError.noChain.throw
  else match v with
    | .string s => if Chain.isId s then .ok s else (RequestError.badChain v).throw
    | v => (RequestError.badChain v).throw

def checkAction (v : Json) : Checked Action :=
  if !v.truthy then RequestError.noAction.throw
  else match v.text?.bind Action.inAnyCase? with
    | some a => .ok a
    | none => (RequestError.unknownAction v).throw

/-- An address of a request; what counts as false is as good as absent. -/
def checkAddress (refuse : Json → RequestError) (v : Json) : Checked (Option String) :=
  if !v.truthy then .ok none
  else match v with
    | .string s => if Address.isAddress s then .ok (some s) else (refuse v).throw
    | v => (refuse v).throw

def checkValue (v : Json) : Checked (Option Number) := do
  match v with
  | .null => return none
  | v =>
    match ← v.finite? with
    | some n => if n.lt 0 then (RequestError.badValue v).throw else return some n
    | none => (RequestError.badValue v).throw

/-- The arguments of a request, which must be texts, and not a single text. -/
def checkArguments (v : Json) : Checked (Option (List String)) := do
  match v with
  | .null => return none
  | .string _ => RequestError.badArguments.throw
  | v =>
    match Json.texts? (← v.parts) with
    | some texts => return some texts
    | none => RequestError.badArguments.throw

def ofJson (v : Json) : Checked Request := do
  match v with
  | .object _ =>
    let chain ← checkChain (← v.field "chainId")
    let action ← checkAction (← v.field "type")
    let recipient ← checkAddress .badRecipient (← v.field "to")
    let sender ← checkAddress .badSender (← v.field "from")
    let valueUsd ← checkValue (← v.field "valueUsd")
    let arguments ← checkArguments (← v.field "arguments")
    return { chain, action, recipient, valueUsd, sender, arguments }
  | _ => RequestError.notObject.throw

/-- The action of a raw transaction: without a recipient it deploys a contract, with data it calls
one, and otherwise it transfers. -/
def classify (recipient data : Json) : Checked Action := do
  let empty := Json.string "0x"
  if !recipient.truthy || recipient.same empty then return .deployContract
  if data.truthy && !data.same empty then
    if 2 < (← data.size) then return .smartContract
  return .transfer

end Request

end Allowance
