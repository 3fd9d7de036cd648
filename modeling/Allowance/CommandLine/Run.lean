import Allowance.CommandLine.Command
import Allowance.Document.Summary
import Allowance.Registry.Authority
import Allowance.Registry.Basic

/-! # Running commands

A command prints its result and ends with an exit code: a decision has one code when it allows and
another when it denies. Faults in what the user gave are reported in the log.
-/

namespace Allowance.CommandLine

inductive Exit
  | allowed
  | error
  | denied
  deriving DecidableEq

def Exit.code : Exit → Nat
  | allowed => 0
  | error => 1
  | denied => 2

/-- Arguments that make up no command end the program as a denial does, and help as a success. -/
def Stop.exit : Stop → Exit
  | help => .allowed
  | usage => .denied

def logger : String := "main"

def openFile (path : String) : Step Content := do
  (← getThe World).disk.read (Path.normal path)

def readFile (path : String) : Step String := do
  (← openFile path).read

def isInline (s : String) : Bool := (Text.trimLeft s.toList).head? == some '\x7b'

/-- The text that an argument stands for: the input if it is a dash, the argument itself if it is
JSON text, or else the content of a file. -/
def readSource : Json → Step String
  | .string s => if s == "-" then Step.readInput else if isInline s then return s else readFile s
  | _ => throw (.misuse .noMember)

def readDocument (source : Json) : Step Document := do Document.parse (← readSource source)

def readRequest (source : Json) : Step Request := do
  Request.ofJson (← Json.parse (← readSource source))

def resultIndent : Nat := 2

def printJson (v : Json) : Step Unit := Step.print (v.write (some resultIndent))

def printDecision (d : Decision) : Step Exit := do
  printJson d.toJson
  return if d.allowed then .allowed else .denied

namespace Wishes

def textsOrNull (ss : List String) : Json := if ss.isEmpty then .null else .ofTexts ss

def limit (w : Wishes) : Json := .ofNumber? (w.usdLimit.map .double)

def options (w : Wishes) (validFrom validTo : Option Int) : Options where
  usdLimit := w.limit
  allowedAddresses := textsOrNull w.addresses
  restrictToBase := .bool w.baseOnly
  allowedChains := textsOrNull w.chains
  blockedActions := .ofActions w.blocked
  allowSignMessages := .bool w.signing
  validFrom := .ofNumber? (validFrom.map .int)
  validTo := .ofNumber? (validTo.map .int)

def draft (w : Wishes) : Draft :=
  let blank : Draft := {}
  { name := (w.name.map .string).getD blank.name
    usdLimit := w.limit
    restrictToBase := .bool w.baseOnly
    allowedChains := .ofTexts w.chains
    allowedAddresses := textsOrNull w.addresses
    blockedActions := .ofActions w.blocked
    allowSignMessages := .bool w.signing }

end Wishes

def deliver (d : Document) : Option String → Step Unit
  | none => Step.print d.display
  | some output => do
    let path := Path.normal output
    let w ← getThe World
    let disk ← w.disk.writeText path (d.display ++ "\n")
    set { w with disk }
    Step.log .info logger ("wrote policy to " ++ path)

def Command.run (config : Config) : Command → Step Exit
  | .compile wishes partner validFrom validTo output => do
    let partner := (partner.filter (!·.isEmpty)).getD config.partner
    let d ← (wishes.options validFrom validTo).compile (.string partner) defaultChains
    deliver d output
    return .allowed
  | .evaluate policy tx now => do
    let d ← readDocument policy
    let r ← readRequest tx
    printDecision (d.evaluate r (now.map .int))
  | .summary policy full => do
    let d ← readDocument policy
    if full then Step.print d.display else printJson d.summary
    return .allowed
  | .createPolicy parent wishes => do
    let p ← (Registry.ofConfig config).create (.string parent) wishes.draft
    printJson (← p.toJson)
    return .allowed
  | .link policy child => do
    let p ← (Registry.ofConfig config).link policy child
    printJson (← p.toJson)
    return .allowed
  | .check child tx => do
    let r ← readRequest tx
    printDecision (← (Registry.ofConfig config).shelf.authorize child r).1

/-- What the log says about a fault in what the user gave; other faults are not reported. -/
def report? : Fault → Option String
  | .options e => some e.message
  | .document e => some e.message
  | .request e => some e.message
  | .noRecord id => some (Fault.noRecord id).message
  | .file e => some ("could not read input: " ++ e.message)
  | .notJson e => some ("could not read input: " ++ e.message)
  | _ => none

def run (vars : Variables) (args : List String) : Step Exit :=
  match Command.ofArguments args with
  | .error stop => return stop.exit
  | .ok command =>
    tryCatch (do command.run (← Config.load vars false)) fun f =>
      match report? f with
      | some message => do
        Step.log .error logger message
        return .error
      | none => throw f

end Allowance.CommandLine
