import Allowance.Evaluation
import Allowance.Registry.Publication

/-! # The authoritative check

A request to sign is decided by the document that is published for the child, at the time of the
clock. Where none is published the request is denied.
-/

namespace Allowance.Shelf

def authorityLogger : String := "core.policy_engine"

def logDecision (child : String) (r : Request) (d : Decision) : Step Unit :=
  let what := r.action.word ++ " on chain " ++ r.chain
  Step.log .info authorityLogger <|
    match d with
    | .allow => what ++ " allowed for " ++ Address.short child
    | .deny cause => what ++ " denied for " ++ Address.short child ++ ": " ++ cause.reason

/-- The decision on a request of a child, and the publication that it was made from. -/
def authorize (shelf : Shelf) (child : Json) (r : Request) :
    Step (Decision × Option Publication) := do
  match ← shelf.get? child with
  | none =>
    Step.log .info authorityLogger
      ("no policy on file for " ++ Address.short child.plain ++ ", denying")
    return (.deny .noPolicy, none)
  | some p =>
    let d := p.document.evaluate r (some (← Step.now))
    logDecision child.plain r d
    return (d, some p)

end Allowance.Shelf
