import Allowance.Document.Basic
import Allowance.World.Disk

/-! # Steps in the world

What lies outside is asked in order: the clock for the time, a source of fresh ids, services for
their replies and the market for prices. A step may ask, change files and published documents,
log and call, and may fail; what it did before it failed stays done.
-/

namespace Allowance

inductive Reply
  | response (status : Int) (body : String)
  | unreachable (reason : String)
  | badUrl

inductive Quote
  | data (v : Json)
  | failure (reason : String)

/-- What the outside answers to the n-th question of each kind, counted from zero. -/
structure Sources where
  time : Nat → Number
  id : Nat → String
  reply : Nat → Reply
  quote : Nat → Quote

inductive Level
  | info
  | warning
  | error
  deriving DecidableEq

def Level.word : Level → String
  | info => "INFO"
  | warning => "WARNING"
  | error => "ERROR"

structure LogEntry where
  level : Level
  logger : String
  message : String
  deriving DecidableEq

def LogEntry.text (e : LogEntry) : String := e.level.word ++ " " ++ e.logger ++ ": " ++ e.message

inductive Call
  | post (url : String) (body : Json) (headers : List (String × String)) (timeout : Number)
  | get (url : String) (auth : String × String) (timeout : Number)
  | market (key : Option String)
  | price (asset currency : String)
  | sleep (seconds : Double)

structure Publication where
  parent : Json
  document : Document

/-- Files, the documents published in memory, what is still to be read from the input, what was
printed, the log, the calls made, and how many questions of each kind were asked. -/
structure World where
  sources : Sources
  disk : Disk := {}
  shelf : List (String × Publication) := []
  input : String := ""
  output : String := ""
  log : List LogEntry := []
  calls : List Call := []
  times : Nat := 0
  ids : Nat := 0
  replies : Nat := 0
  quotes : Nat := 0

/-- A computation that acts on the world and may fail. -/
abbrev Step := ExceptT Fault (StateM World)

namespace Step

/-- Runs a step; the world it leaves behind is there whether or not it failed. -/
def perform {α : Type} (step : Step α) (w : World) : Checked α × World := step.run.run w

def now : Step Number := do
  let w ← getThe World
  set { w with times := w.times + 1 }
  return w.sources.time w.times

def freshId : Step String := do
  let w ← getThe World
  set { w with ids := w.ids + 1 }
  return w.sources.id w.ids

def log (level : Level) (logger message : String) : Step Unit :=
  modifyThe World fun w => { w with log := w.log ++ [⟨level, logger, message⟩] }

/-- Reads the input to its end; a second reading finds nothing. -/
def readInput : Step String := do
  let w ← getThe World
  set { w with input := "" }
  return w.input

def print (s : String) : Step Unit :=
  modifyThe World fun w => { w with output := w.output ++ s ++ "\n" }

def ask (call : Call) : Step Reply := do
  let w ← getThe World
  set { w with calls := w.calls ++ [call], replies := w.replies + 1 }
  return w.sources.reply w.replies

def askPrice (asset currency : String) : Step Quote := do
  let w ← getThe World
  set { w with calls := w.calls ++ [Call.price asset currency], quotes := w.quotes + 1 }
  return w.sources.quote w.quotes

def tell (call : Call) : Step Unit :=
  modifyThe World fun w => { w with calls := w.calls ++ [call] }

def ofChecked {α : Type} (r : Checked α) : Step α :=
  match r with
  | .ok v => return v
  | .error f => throw f

instance : MonadLift (Except Fault) Step := ⟨ofChecked⟩

end Step

end Allowance
