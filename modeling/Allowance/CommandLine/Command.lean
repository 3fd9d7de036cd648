import Allowance.CommandLine.Reading

/-! # Commands

There are six commands. Three work on documents alone: they compile settings, evaluate a request
and summarise. The other three work on the stored state: they create a policy, link a child to it
and check a request of a child.
-/

namespace Allowance.CommandLine

structure Wishes where
  name : Option String
  usdLimit : Option Double
  addresses : List String
  baseOnly : Bool
  chains : List String
  blocked : List Action
  signing : Bool

/-- A command and its arguments. Arguments by position are values, as two dashes may stand for an
empty list. -/
inductive Command
  | compile (wishes : Wishes) (partner : Option String) (validFrom validTo : Option Int)
      (output : Option String)
  | evaluate (policy tx : Json) (now : Option Int)
  | summary (policy : Json) (full : Bool)
  | createPolicy (parent : String) (wishes : Wishes)
  | link (policy child : Json)
  | check (child tx : Json)

namespace Wishes

def rules : List OptionRule := [
  { name := "name", value := some .text },
  { name := "usd-limit", value := some .decimal },
  { name := "allowed-address", value := some .text },
  { name := "base-only" },
  { name := "chain", value := some .text },
  { name := "block", value := some .action },
  { name := "allow-sign-messages" }]

def ofGiven (g : Given) : Wishes where
  name := g.last? "name"
  usdLimit := (g.last? "usd-limit").bind Text.readDouble?
  addresses := g.all "allowed-address"
  baseOnly := g.has "base-only"
  chains := g.all "chain"
  blocked := (g.all "block").filterMap Action.inAnyCase?
  signing := g.has "allow-sign-messages"

end Wishes

namespace Command

def nowRule : OptionRule := { name := "now", value := some .whole }

/-- The commands by name: their grammars, and what they make of what is given. -/
def catalogue : List (String × Grammar × (Given → Command)) := [
  ("compile",
    { options := Wishes.rules ++ [
        { name := "partner-id", value := some .text },
        { name := "valid-from", value := some .whole },
        { name := "valid-to", value := some .whole },
        { name := "output", letter := some 'o', value := some .text }] },
    fun g => compile (.ofGiven g) (g.last? "partner-id") (g.whole? "valid-from")
      (g.whole? "valid-to") (g.last? "output")),
  ("evaluate", { options := [nowRule], positions := 2 },
    fun g => evaluate (g.position 0) (g.position 1) (g.whole? "now")),
  ("summary", { options := [{ name := "full" }], positions := 1 },
    fun g => summary (g.position 0) (g.has "full")),
  ("create-policy",
    { options := { name := "parent", value := some .text, required := true } :: Wishes.rules },
    fun g => createPolicy ((g.last? "parent").getD "") (.ofGiven g)),
  ("link", { positions := 2 }, fun g => link (g.position 0) (g.position 1)),
  ("check", { positions := 2 }, fun g => check (g.position 0) (g.position 1))]

def named (name : String) (args : List String) : Except Stop Command :=
  match catalogue.lookup name with
  | some (grammar, make) => (grammar.read args).map make
  | none => .error .usage

/-- The command that arguments make up. Before its name there may be a call for help; whatever else
stands there is surplus, and is found to be so only after the command has read its arguments. -/
def parse (surplus : Bool) : List String → Except Stop Command
  | [] => .error .usage
  | arg :: rest => do
    if arg == "--" then throw .usage
    match ← Grammar.token {} arg with
    | .argument name =>
      let command ← named name rest
      if surplus then throw .usage else return command
    | .mention m => if m.flags.isEmpty then parse (surplus || m.stray) rest else throw .help
    | .separator => throw .usage
    | .refused => throw .usage

def ofArguments (args : List String) : Except Stop Command := parse false args

end Command

end Allowance.CommandLine
