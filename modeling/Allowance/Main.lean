import Allowance.CommandLine.Run
import Std.Time.DateTime.Timestamp

/-! # The program

The program gathers what a command may look at: the variables, the files that its arguments name,
the state file, the clock and a fresh id. It runs the command on these, prints what the command
printed, and writes the files that the command changed.
-/

namespace Allowance.Program

open CommandLine

def variableNames : List String := [
  "ALLOWANCE_PARTNER_ID", "ALLOWANCE_STATE_PATH", "COINGECKO_DEMO_API_KEY", "STRIPE_SECRET_KEY",
  "WALLET_SERVICE_API_KEY", "WALLET_SERVICE_ENV", "WALLET_SERVICE_TIMEOUT", "WALLET_SERVICE_URL"]

def sources : Command → List String
  | .evaluate policy tx _ => [policy, tx].filterMap Json.text?
  | .summary policy _ => [policy].filterMap Json.text?
  | .check _ tx => [tx].filterMap Json.text?
  | _ => []

/-- The paths that a command may read or write, the state file aside. -/
def paths : Command → List String
  | .compile _ _ _ _ (some output) => [Path.normal output]
  | command => ((sources command).filter fun s => !isInline s).map Path.normal

def readVariables : IO Variables := do
  let found ← variableNames.mapM fun name => do return (← IO.getEnv name).map fun v => (name, v)
  return found.filterMap id

def directoryErrno : UInt32 := 21

def gatherAt (d : Disk) (path : String) : IO Disk := do
  match ← (IO.FS.readBinFile path).toBaseIO with
  | .ok bytes => return d.write path (((String.fromUTF8? bytes).map .text).getD (.garbled []))
  | .error (.inappropriateType _ errno _) =>
    return if errno == directoryErrno then { d with directories := path :: d.directories } else d
  | .error _ => return d

/-- The disk with what lies at a path and on the way to it. -/
def gather (d : Disk) (path : String) : IO Disk := (Path.ancestors path ++ [path]).foldlM gatherAt d

def idBytes : USize := 16

def hexByte (b : UInt8) : List Char := [Nat.digitChar (b.toNat / 16), Nat.digitChar (b.toNat % 16)]

def outside : IO Sources := do
  let now ← Std.Time.Timestamp.now
  let id ← IO.getRandomBytes idBytes
  return {
    time := fun _ => .int now.toMillisecondsSinceUnixEpoch.val
    id := fun _ => String.ofList (id.toList.flatMap hexByte)
    reply := fun _ => .unreachable "no services"
    quote := fun _ => .failure "no services" }

def writeChanges (before after : Disk) : IO Unit := do
  for (path, content) in after.files do
    if let some s := content.text? then
      if (before.lookup path).bind Content.text? != some s then
        match (Path.ancestors path).getLast? with
        | some directory => IO.FS.createDirAll directory
        | none => pure ()
        IO.FS.writeFile path s

def perform (args : List String) : IO UInt32 := do
  let vars ← readVariables
  let command := (Command.ofArguments args).toOption
  let statePath := (Config.load vars false).toOption.map (·.statePath)
  let looked := (command.map paths).getD [] ++ statePath.toList
  let disk ← looked.foldlM gather {}
  let input ← if ((command.map sources).getD []).contains "-" then (← IO.getStdin).readToEnd
    else pure ""
  let (result, w) := (run vars args).perform { sources := ← outside, disk, input }
  IO.print w.output
  for entry in w.log do
    IO.eprintln entry.text
  writeChanges disk w.disk
  match result with
  | .ok exit => return exit.code.toUInt32
  | .error f =>
    IO.eprintln ("fault: " ++ f.message)
    return Exit.error.code.toUInt32

end Allowance.Program

def main (args : List String) : IO UInt32 := Allowance.Program.perform args
