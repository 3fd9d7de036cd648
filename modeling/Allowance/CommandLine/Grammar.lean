import Allowance.Number.Reading
import Allowance.Request

/-! # Grammars of arguments

A command takes options, which go by a name or a letter, and further arguments by their position.
A name stands after two dashes and may be cut short where that leaves one choice; its value
follows after an equals sign or as the next argument. Letters stand after one dash, several of
them together; the first that takes a value has the rest as its value. After a separator, which
is two dashes alone, everything is an argument by position.
-/

namespace Allowance.CommandLine

/-- Why arguments do not make up a command: they ask for help, or break the grammar. -/
inductive Stop
  | help
  | usage
  deriving DecidableEq

inductive ValueKind
  | text
  | whole
  | decimal
  | action

def ValueKind.accepts : ValueKind → String → Bool
  | text, _ => true
  | whole, s => (Text.readInt? s).isSome
  | decimal, s => (Text.readDouble? s).isSome
  | action, s => (Action.inAnyCase? s).isSome

/-- An option; one that takes no value is a flag. -/
structure OptionRule where
  name : String
  letter : Option Char := none
  value : Option ValueKind := none
  required : Bool := false

/-- The options of a command, the one for help aside, and how many arguments it takes by
position. -/
structure Grammar where
  options : List OptionRule := []
  positions : Nat := 0

/-- What an argument says that starts with a dash: some flags, and perhaps an option with a value,
which may have to follow as the next argument. What is stray belongs to no option. -/
structure Mention where
  flags : List OptionRule := []
  valued : Option (OptionRule × Option String) := none
  stray : Bool := false

/-- An argument as the grammar sees it; a flag with a value is refused. -/
inductive Token
  | argument (s : String)
  | separator
  | mention (m : Mention)
  | refused

def splitValue (cs : List Char) : List Char × Option String :=
  match cs.span (· != '=') with
  | (name, _ :: value) => (name, some (String.ofList value))
  | (name, []) => (name, none)

/-- Whether the characters after a dash make up a negative number, perhaps with a line feed at its
end. -/
def isMagnitude (cs : List Char) : Bool :=
  let cs := if cs.getLast? = some '\n' then cs.dropLast else cs
  match cs.span Text.isDigit with
  | (whole, []) => !whole.isEmpty
  | (_, '.' :: fraction) => !fraction.isEmpty && fraction.all Text.isDigit
  | _ => false

/-- An argument that starts with a dash and names no option is stray, but one with a space in it is
an argument by position. -/
def Token.unknown (s : String) : Token :=
  if s.toList.contains ' ' then .argument s else .mention { stray := true }

def helpRule : OptionRule := { name := "help", letter := some 'h' }

namespace Grammar

def rules (g : Grammar) : List OptionRule := helpRule :: g.options

/-- The options that a name may mean: the one of that name, or else all whose names it begins. -/
def named (g : Grammar) (name : List Char) : List OptionRule :=
  match g.rules.find? (·.name.toList == name) with
  | some rule => [rule]
  | none => g.rules.filter fun rule => name.isPrefixOf rule.name.toList

/-- What letters say; nothing if a flag among them is followed by a value or a dash. -/
def letters (g : Grammar) : List Char → Option Mention
  | [] => some {}
  | c :: rest =>
    match g.rules.find? (·.letter == some c), rest with
    | none, _ => some { stray := true }
    | some { value := none, .. }, '=' :: _ => none
    | some { value := none, .. }, '-' :: _ => none
    | some rule@{ value := none, .. }, rest =>
      (g.letters rest).map fun m => { m with flags := rule :: m.flags }
    | some rule, [] => some { valued := some (rule, none) }
    | some rule, '=' :: value => some { valued := some (rule, some (String.ofList value)) }
    | some rule, value => some { valued := some (rule, some (String.ofList value)) }

/-- What a name with or without a value says; it must not mean several options. -/
def longToken (g : Grammar) (cs : List Char) (s : String) : Except Stop Token :=
  let (name, value) := splitValue cs
  match g.named name with
  | [] => .ok (.unknown s)
  | [rule] =>
    match rule.value, value with
    | none, none => .ok (.mention { flags := [rule] })
    | none, some _ => .ok .refused
    | some _, value => .ok (.mention { valued := some (rule, value) })
  | _ => .error .usage

/-- What letters say, if the first of them is that of an option. -/
def shortToken (g : Grammar) (cs : List Char) (s : String) : Token :=
  match cs with
  | [] => .argument s
  | c :: _ =>
    if g.rules.any (·.letter == some c) then
      match g.letters cs with
      | some m => .mention m
      | none => .refused
    else if isMagnitude cs then .argument s
    else .unknown s

def token (g : Grammar) (s : String) : Except Stop Token :=
  match s.toList with
  | '-' :: '-' :: cs => g.longToken cs s
  | '-' :: cs => .ok (g.shortToken cs s)
  | _ => .ok (.argument s)

def tokens (g : Grammar) (args : List String) : Except Stop (List Token) := do
  let front ← (args.takeWhile (· != "--")).mapM g.token
  match args.dropWhile (· != "--") with
  | [] => return front
  | _ :: rest => return front ++ Token.separator :: rest.map .argument

end Grammar

end Allowance.CommandLine
