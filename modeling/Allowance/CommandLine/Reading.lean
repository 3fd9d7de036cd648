import Allowance.CommandLine.Grammar

/-! # Reading arguments

The arguments of a command are read from left to right. An option may be given several times and
is taken where it stands: a call for help ends the reading there, and so does a value that is not
of its kind. At the end nothing may be left over and nothing may be missing.
-/

namespace Allowance.CommandLine

structure Given where
  flags : List String := []
  values : List (String × String) := []
  positions : List Json := []

namespace Given

def has (g : Given) (name : String) : Bool := g.flags.contains name

def all (g : Given) (name : String) : List String :=
  (g.values.filter (·.1 == name)).map (·.2)

def last? (g : Given) (name : String) : Option String := (g.all name).getLast?

def whole? (g : Given) (name : String) : Option Int := (g.last? name).bind Text.readInt?

def position (g : Given) (n : Nat) : Json := (g.positions[n]?).getD (.array [])

end Given

/-- What stands before the next argument, as far as it matters to it. -/
inductive Place
  | free
  | afterPosition
  | afterSeparator
  deriving DecidableEq

/-- How far the reading is: what was given, how many positions are still open, which mention
awaits its value, and whether anything is left over. -/
structure Progress where
  given : Given := {}
  openPositions : Nat
  place : Place := .free
  pending : Option Mention := none
  surplus : Bool := false

namespace Progress

def takeMention (p : Progress) (m : Mention) (next : Option String) : Except Stop Progress := do
  if m.flags.any (·.name == helpRule.name) then throw .help
  let value ← match m.valued with
    | none => pure []
    | some (rule, value) => do
      let s := (value.orElse fun _ => next).getD ""
      if (rule.value.getD .text).accepts s then pure [(rule.name, s)] else throw .usage
  return { p with
    given := { p.given with
      flags := p.given.flags ++ m.flags.map (·.name)
      values := p.given.values ++ value }
    place := .free
    pending := none
    surplus := p.surplus || m.stray }

/-- Takes an argument by position. Two dashes that are not the first after a separator are an
empty list. -/
def takePosition (p : Progress) (s : String) : Progress :=
  match p.openPositions with
  | 0 => { p with place := .free, surplus := true }
  | n + 1 =>
    let v := if s == "--" && p.place != .afterSeparator then .array [] else .string s
    { p with
      given := { p.given with positions := p.given.positions ++ [v] }
      openPositions := n
      place := .afterPosition }

def take (p : Progress) (t : Token) : Except Stop Progress :=
  match p.pending, t with
  | some m, .argument s => p.takeMention m (some s)
  | some _, _ => .error .usage
  | none, .argument s => .ok (p.takePosition s)
  | none, .separator =>
    .ok { p with place := if p.place = .afterPosition then .free else .afterSeparator }
  | none, .refused => .error .usage
  | none, .mention m =>
    match m.valued with
    | some (_, none) => .ok { p with place := .free, pending := some m }
    | _ => p.takeMention m none

def finish (p : Progress) (rules : List OptionRule) : Except Stop Given :=
  let missing := rules.any fun rule => rule.required && (p.given.last? rule.name).isNone
  if p.pending.isSome || p.surplus || p.openPositions != 0 || p.place == .afterSeparator || missing
  then .error .usage
  else .ok p.given

end Progress

def Grammar.read (g : Grammar) (args : List String) : Except Stop Given := do
  let start : Progress := { openPositions := g.positions }
  (← (← g.tokens args).foldlM Progress.take start).finish g.options

end Allowance.CommandLine
