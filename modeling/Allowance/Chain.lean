import Allowance.Json.Access

/-! # Chains

A chain is known by its id, a numeral. A few chains have names; Base is the one that a wallet is
restricted to on request. Chains are listed with the named ones first, in the order of their
catalogue, and the others after them by number.
-/

namespace Allowance

structure Chain where
  id : String
  name : String
  deriving DecidableEq

namespace Chain

def base : Chain := ⟨"8453", "Base"⟩

def ethereum : Chain := ⟨"1", "Ethereum"⟩

def polygon : Chain := ⟨"137", "Polygon"⟩

def arbitrum : Chain := ⟨"42161", "Arbitrum"⟩

def optimism : Chain := ⟨"10", "Optimism"⟩

/-- The chains that have names, in the order in which chains are listed. -/
def catalogue : List Chain := [base, ethereum, polygon, arbitrum, optimism]

def namedIds : List String := catalogue.map id

def label (id : String) : String :=
  match catalogue.find? (·.id == id) with
  | some chain => chain.name
  | none => "chain " ++ id

def isId (s : String) : Bool := !s.isEmpty && s.toList.all Text.isAsciiDigit

def isIdValue : Json → Bool
  | .string s => isId s
  | _ => false

def labelOf : Json → Checked String
  | .string s => .ok (label s)
  | v => if v.isScalar then .ok ("chain " ++ v.shown) else misuse .wrongKind

/-- Where a chain is listed: its place in the catalogue, or its number after all of these. -/
def rank (id : String) : Checked (Nat × Int) :=
  match namedIds.findIdx? (· == id) with
  | some place => .ok (0, place)
  | none =>
    match Text.readInt? id with
    | some n => .ok (1, n)
    | none => misuse .badValue

def rankOf : Json → Checked (Nat × Int)
  | .string s => rank s
  | v => v.toInt.map fun n => (1, n)

def rankLe (a b : Nat × Int) : Bool := a.1 < b.1 || (a.1 == b.1 && a.2 ≤ b.2)

/-- Things in the order of their ranks, those of one rank as they came. -/
def listedBy {α : Type} (rank : α → Checked (Nat × Int)) (ids : List α) :
    Checked (List α) := do
  let ranked ← ids.mapM fun id => do return (← rank id, id)
  return (ranked.mergeSort fun a b => rankLe a.1 b.1).map (·.2)

def listed (ids : List String) : Checked (List String) := listedBy rank ids

end Chain

end Allowance
