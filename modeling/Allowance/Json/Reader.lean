import Allowance.Json.Basic
import Allowance.Json.Syntax

/-! # Reading JSON

The reader takes a value from the start of the remaining characters and returns what follows it.
Beside the values of the standard it knows the names of what is not finite. A number with a point
or an exponent is a double, any other an integer. Of two fields with one name the later value
counts, in the place of the earlier.
-/

namespace Allowance.Json

open Text

/-- Why the reader stopped; a flaw is placed by the number of characters left there. -/
inductive Stop
  | flaw (flaw : Flaw) (left : Nat)
  | longNumber
  | tooDeep

abbrev Taken (α : Type) := Except Stop (α × List Char)

/-- What a text leaves open. -/
structure Reader where
  /-- What stands for half of a pair of UTF-16 units, which has no character of its own: different
  characters for different halves, here those of a private range. -/
  half : Nat → Char := fun unit => Char.ofNat (0x100000 + (unit - 0xd800))
  /-- The deepest nesting of arrays and objects that is read. It depends on the room that is left on
  the caller's stack; a short program leaves about this much. -/
  depth : Nat := 990

def skipSpace (cs : List Char) : List Char :=
  cs.dropWhile fun c => c = ' ' || c = '\t' || c = '\n' || c = '\r'

def hexValue? (c : Char) : Option Nat :=
  if '0' ≤ c && c ≤ '9' then some (c.toNat - '0'.toNat)
  else if 'a' ≤ c && c ≤ 'f' then some (c.toNat - 'a'.toNat + 10)
  else if 'A' ≤ c && c ≤ 'F' then some (c.toNat - 'A'.toNat + 10)
  else none

def hexUnit? (a b c d : Char) : Option Nat := do
  return (((← hexValue? a) * 16 + (← hexValue? b)) * 16 + (← hexValue? c)) * 16 +
    (← hexValue? d)

section Taking

variable (half : Nat → Char)

/-- The character of a UTF-16 unit that stands alone. -/
def unitChar (unit : Nat) : Char :=
  if 0xd800 ≤ unit && unit < 0xe000 then half unit else Char.ofNat unit

def pairChar? (high low : Nat) : Option Char :=
  if 0xd800 ≤ high && high < 0xdc00 && 0xdc00 ≤ low && low < 0xe000 then
    some (Char.ofNat (0x10000 + (high - 0xd800) * 0x400 + (low - 0xdc00)))
  else none

def escapeLetter? (c : Char) : Option Char :=
  if c = '"' || c = '\\' || c = '/' then some c
  else if c = 'b' then some '\x08'
  else if c = 'f' then some '\x0c'
  else if c = 'n' then some '\n'
  else if c = 'r' then some '\r'
  else if c = 't' then some '\t'
  else none

/-- A unit that follows `\u`, which needs four digits and a further character after them. -/
def takeUnit (cs : List Char) : Taken Nat :=
  match cs with
  | a :: b :: c :: d :: next :: rest =>
    match hexUnit? a b c d with
    | some unit => .ok (unit, next :: rest)
    | none => .error (.flaw .badUnicodeEscape (cs.length + 1))
  | _ => .error (.flaw .badUnicodeEscape (cs.length + 1))

/-- A unit in the second half of a pair: one more escape with a character after it. -/
def takeSecond (cs : List Char) : Taken (Option Nat) :=
  match cs with
  | '\\' :: 'u' :: rest =>
    if rest.length < 5 then .ok (none, cs)
    else (takeUnit rest).map fun (unit, after) => (some unit, after)
  | _ => .ok (none, cs)

def takeUnicode (cs : List Char) : Taken Char :=
  match takeUnit cs with
  | .error stop => .error stop
  | .ok (unit, rest) =>
    if 0xd800 ≤ unit && unit < 0xdc00 then
      match takeSecond rest with
      | .error stop => .error stop
      | .ok (second, after) =>
        match second.bind (pairChar? unit) with
        | some c => .ok (c, after)
        | none => .ok (unitChar half unit, rest)
    else .ok (unitChar half unit, rest)

/-- The text after an opening quote, up to its closing quote. `opening` counts the characters left
at the opening quote, and `seen` is what was read, the last character first. -/
def takeTextFrom (opening : Nat) : Nat → List Char → List Char → Taken String
  | 0, _, _ => .error (.flaw .openText opening)
  | fuel + 1, seen, cs =>
    match cs with
    | [] => .error (.flaw .openText opening)
    | '"' :: rest => .ok (String.ofList seen.reverse, rest)
    | '\\' :: 'u' :: rest =>
      match takeUnicode half rest with
      | .ok (c, rest) => takeTextFrom opening fuel (c :: seen) rest
      | .error stop => .error stop
    | '\\' :: c :: rest =>
      match escapeLetter? c with
      | some letter => takeTextFrom opening fuel (letter :: seen) rest
      | none => .error (.flaw .badEscape cs.length)
    | ['\\'] => .error (.flaw .openText opening)
    | c :: rest =>
      if c.toNat < 0x20 then .error (.flaw .controlCharacter cs.length)
      else takeTextFrom opening fuel (c :: seen) rest

def takeText (cs : List Char) : Taken String :=
  takeTextFrom half (cs.length + 1) (cs.length + 1) [] cs

/-- The digits of a number before its point: a single zero, or digits that start with another. -/
def takeWhole (cs : List Char) : List Char × List Char :=
  match cs with
  | '0' :: rest => (['0'], rest)
  | cs => spanDigits cs

/-- The digits behind a point. A point without digits does not belong to the number. -/
def takeFraction (cs : List Char) : List Char × List Char :=
  match cs with
  | '.' :: rest =>
    let (ds, after) := spanDigits rest
    if ds.isEmpty then ([], cs) else (ds, after)
  | cs => ([], cs)

def takeNumber (cs : List Char) : Taken Json :=
  let (negative, unsigned) := match cs with
    | '-' :: rest => (true, rest)
    | cs => (false, cs)
  let (whole, afterWhole) := takeWhole unsigned
  if whole.isEmpty then .error (.flaw .missingValue cs.length)
  else
    let (fraction, afterFraction) := takeFraction afterWhole
    let (exponent, rest) := takeExponent afterFraction
    if rest.length == afterWhole.length then
      let n : Int := digitsValue whole
      if maxDigits < whole.length then .error .longNumber
      else .ok (.int (if negative then -n else n), rest)
    else
      let decimal : TakenDecimal := { whole, fraction, exponent, rest }
      let (coefficient, power) := decimal.scaled
      .ok (.number (.double (.ofDecimal negative coefficient power)), rest)

def names : List (List Char × Json) := [
  ("null".toList, .null),
  ("true".toList, .bool true),
  ("false".toList, .bool false),
  ("NaN".toList, .number (.double .nan)),
  ("Infinity".toList, .number (.double (.infinity false))),
  ("-Infinity".toList, .number (.double (.infinity true)))]

def takeSimple (cs : List Char) : Taken Json :=
  match names.find? fun (name, _) => name.isPrefixOf cs with
  | some (name, v) => .ok (v, cs.drop name.length)
  | none => takeNumber cs

mutual

/-- A value. The fuel bounds the steps, and `depth` counts the brackets that may still open. -/
def takeValue (depth : Nat) : Nat → List Char → Taken Json
  | 0, cs => .error (.flaw .missingValue cs.length)
  | fuel + 1, cs =>
    match cs with
    | '"' :: rest => (takeText half rest).map fun (s, rest) => (.string s, rest)
    | '[' :: rest =>
      match depth, skipSpace rest with
      | 0, _ => .error .tooDeep
      | _, ']' :: rest => .ok (.array [], rest)
      | depth + 1, rest => takeItems depth fuel [] rest
    | '\x7b' :: rest =>
      match depth, skipSpace rest with
      | 0, _ => .error .tooDeep
      | _, '\x7d' :: rest => .ok (.object [], rest)
      | depth + 1, rest => takeFields depth fuel [] rest
    | cs => takeSimple cs

def takeItems (depth : Nat) : Nat → List Json → List Char → Taken Json
  | 0, _, cs => .error (.flaw .missingValue cs.length)
  | fuel + 1, seen, cs =>
    match takeValue depth fuel cs with
    | .error stop => .error stop
    | .ok (v, rest) =>
      match skipSpace rest with
      | ']' :: rest => .ok (.array (v :: seen).reverse, rest)
      | ',' :: rest => takeItems depth fuel (v :: seen) (skipSpace rest)
      | rest => .error (.flaw .missingComma rest.length)

def takeFields (depth : Nat) : Nat → Fields → List Char → Taken Json
  | 0, _, cs => .error (.flaw .missingName cs.length)
  | fuel + 1, seen, cs =>
    match cs with
    | '"' :: rest =>
      match takeText half rest with
      | .error stop => .error stop
      | .ok (name, rest) =>
        match skipSpace rest with
        | ':' :: rest =>
          match takeValue depth fuel (skipSpace rest) with
          | .error stop => .error stop
          | .ok (v, rest) =>
            match skipSpace rest with
            | '\x7d' :: rest => .ok (.object (seen.put name v), rest)
            | ',' :: rest => takeFields depth fuel (seen.put name v) (skipSpace rest)
            | rest => .error (.flaw .missingComma rest.length)
        | rest => .error (.flaw .missingColon rest.length)
    | cs => .error (.flaw .missingName cs.length)

end

end Taking

def takeAll (reader : Reader) (cs : List Char) : Except Stop Json :=
  match takeValue reader.half reader.depth (2 * cs.length + 2) (skipSpace cs) with
  | .error stop => .error stop
  | .ok (v, rest) =>
    match skipSpace rest with
    | [] => .ok v
    | rest => .error (.flaw .extraData rest.length)

def read (text : String) (reader : Reader := {}) : Except ReadError Json :=
  let cs := text.toList
  if cs.head? = some (Char.ofNat 0xfeff) then .error (.malformed (.locate .byteOrderMark cs 0))
  else match takeAll reader cs with
    | .ok v => .ok v
    | .error (.flaw flaw left) => .error (.malformed (.locate flaw cs (cs.length - left)))
    | .error .longNumber => .error .longNumber
    | .error .tooDeep => .error .tooDeep

end Allowance.Json
