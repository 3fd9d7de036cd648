import Allowance.CommandLine.Run

/-! # Replaying histories

A history is a file of requests, one on a line. Each request is decided by one document and the
decision printed with the number of its line; what is no request is reported in the log. Blank
lines and those that start with a number sign are comments. A tally counts how often each result
came up.
-/

namespace Allowance.Replay

open CommandLine

variable (reader : Json.Reader)

def logger : String := "scripts.replay_transactions"

/-- What becomes of a line that is not a comment. -/
inductive Outcome
  | malformed (reason : String)
  | decided (d : Decision)

def Outcome.key : Outcome → String
  | malformed _ => "malformed"
  | decided .allow => "allowed"
  | decided (.deny cause) => cause.code

def isComment (line : String) : Bool := line.isEmpty || line.toList.head? == some '#'

def requestOf (line : String) : Checked Request := do
  Request.ofJson (← Json.parse line reader)

def outcome (d : Document) (now : Json) (line : String) : Checked Outcome :=
  match requestOf reader line with
  | .ok r => (d.evaluateAt r now).map .decided
  | .error (.notJson e) => .ok (.malformed e.message)
  | .error (.request e) => .ok (.malformed e.message)
  | .error f => .error f

abbrev Tally := List (String × Nat)

def Tally.add : Tally → String → Tally
  | [], key => [(key, 1)]
  | (name, n) :: rest, key =>
    if name = key then (name, n + 1) :: rest else (name, n) :: Tally.add rest key

def Tally.text (t : Tally) : String :=
  ", ".intercalate ((t.mergeSort fun a b => a.1 ≤ b.1).map fun (key, n) =>
    key ++ "=" ++ Text.natText n)

def publish (number : Nat) : Outcome → Step Unit
  | .malformed reason =>
    Step.log .warning logger ("line " ++ Text.natText number ++ " skipped: " ++ reason)
  | .decided d => Step.print ((Json.object (("line", .int number) :: d.fields)).write none)

def replayLine (d : Document) (now : Json) (tally : Tally) (line : String) (number : Nat) :
    Step Tally := do
  let line := Text.trimmed line
  if isComment line then return tally
  let o ← outcome reader d now line
  publish number o
  return tally.add o.key

def openNamed : Json → Step Content
  | .string path => openFile path
  | _ => throw (.misuse .noMember)

/-- Replays a history by a document at a time, if one is given. Bytes that do not decode are come
upon after the lines before them. -/
def replay (policy history now : Json) (reader : Json.Reader := {}) : Step Tally := do
  let rules ← openNamed policy
  let d ← Document.parse (← rules.read) reader
  let past ← openNamed history
  let tally ← (past.lines.zipIdx 1).foldlM
    (fun tally (line, number) => replayLine reader d now tally line number) []
  let _ ← past.read
  return tally

structure Arguments where
  policy : Json
  history : Json
  now : Option Int

def Arguments.parse (args : List String) : Except Stop Arguments := do
  let g ← Grammar.read { options := [Command.nowRule], positions := 2 } args
  return { policy := g.position 0, history := g.position 1, now := g.whole? "now" }

def Arguments.run (a : Arguments) : Step Unit := do
  let tally ← replay a.policy a.history (.ofNumber? (a.now.map .int))
  Step.log .info logger ("replay done: " ++ tally.text)

end Allowance.Replay
