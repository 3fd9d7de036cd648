import Allowance.Evaluation

/-! # Summaries of documents

A summary shows what a document amounts to. It loses detail: of several limits it shows the
tightest. Decisions are never made from it.
-/

namespace Allowance

/-- The smallest of some numbers, the first of those that are equal. -/
def smallest? : List Number → Option Number
  | [] => none
  | n :: rest => some (rest.foldl (fun best m => if m.lt best then m else best) n)

namespace Condition

def limit? (c : Condition) : Option Number :=
  match c.resource, c.test with
  | .value, .lessThan n => some n
  | .value, .equalsNumber n => some n
  | _, _ => none

def recipients? (c : Condition) : Option (List String) :=
  match c.resource, c.test with
  | .recipient, .includedIn listed => some listed
  | _, _ => none

end Condition

namespace Document

def transferConditions (d : Document) : List Condition :=
  let transfers := d.permissions.filter fun p => p.effect == .allow && p.action == .transfer
  transfers.flatMap (·.conditions)

def usdLimit (d : Document) : Option Number :=
  smallest? (d.transferConditions.filterMap (·.limit?))

/-- The recipients of the first permission to transfer that lists any. -/
def allowedAddresses (d : Document) : Option (List String) :=
  d.transferConditions.findSome? (·.recipients?)

def denies (d : Document) (a : Action) : Bool :=
  d.permissions.any fun p => p.effect == .deny && p.action == a

def deniedActions (d : Document) : List String :=
  ((Action.all.filter d.denies).map (·.word)).mergeSort (· ≤ ·)

def chainSummary (chains : List String) : String :=
  if chains == [Chain.base.id] then "Base only" else Text.natText chains.length ++ " chains"

def summary (d : Document) : Json := .object [
  ("chain", .string (chainSummary d.allowedChains)),
  ("allowed_chains", .ofTexts d.allowedChains),
  ("usd_limit", .ofNumber? d.usdLimit),
  ("blocked_actions", .ofTexts d.deniedActions),
  ("allowed_addresses", (d.allowedAddresses.map Json.ofTexts).getD .null)]

end Document

end Allowance
