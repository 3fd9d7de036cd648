import Allowance.Json.Basic

/-! # Writing JSON

Text is written in ASCII alone: other characters are escaped as UTF-16 units. On one line, items
are separated by a comma and a space. With an indentation each item stands on a line of its own,
while empty arrays and objects stay closed.
-/

namespace Allowance.Json

open Text

def unitEscape (unit : Nat) : List Char := '\\' :: 'u' :: hexDigits 4 unit

def escapedChar (c : Char) : List Char :=
  if c = '"' || c = '\\' then ['\\', c]
  else if c = '\n' then ['\\', 'n']
  else if c = '\r' then ['\\', 'r']
  else if c = '\t' then ['\\', 't']
  else if c = '\x0c' then ['\\', 'f']
  else if c = '\x08' then ['\\', 'b']
  else if 0x20 ≤ c.toNat && c.toNat < 0x7f then [c]
  else if c.toNat < 0x10000 then unitEscape c.toNat
  else
    let offset := c.toNat - 0x10000
    unitEscape (0xd800 + offset / 0x400) ++ unitEscape (0xdc00 + offset % 0x400)

def writtenText (s : String) : String :=
  String.ofList ('"' :: s.toList.flatMap escapedChar ++ ['"'])

def writtenNumber : Number → String
  | .double .nan => "NaN"
  | .double (.infinity negative) => if negative then "-Infinity" else "Infinity"
  | n => n.text

/-- How a written array or object is laid out: on one line, or with each item on its own line,
`width` spaces further in than what holds it. -/
inductive Layout
  | line
  | indented (width level : Nat)

namespace Layout

def ofIndent? : Option Nat → Layout
  | none => .line
  | some width => .indented width 0

def deeper : Layout → Layout
  | .line => .line
  | .indented width level => .indented width (level + 1)

def lineBreak : Layout → String
  | .line => ""
  | .indented width level => String.ofList ('\n' :: List.replicate (width * level) ' ')

def separator : Layout → String
  | .line => ", "
  | layout => "," ++ layout.lineBreak

end Layout

mutual

def written (layout : Layout) : Json → String
  | .null => "null"
  | .bool b => if b then "true" else "false"
  | .number n => writtenNumber n
  | .string s => writtenText s
  | .array [] => "[]"
  | .array (v :: rest) =>
    "[" ++ layout.deeper.lineBreak ++ written layout.deeper v ++ writtenItems layout.deeper rest
      ++ layout.lineBreak ++ "]"
  | .object [] => "\x7b\x7d"
  | .object ((name, v) :: rest) =>
    "\x7b" ++ layout.deeper.lineBreak ++ writtenText name ++ ": " ++ written layout.deeper v
      ++ writtenFields layout.deeper rest ++ layout.lineBreak ++ "\x7d"

def writtenItems (layout : Layout) : List Json → String
  | [] => ""
  | v :: rest => layout.separator ++ written layout v ++ writtenItems layout rest

def writtenFields (layout : Layout) : List (String × Json) → String
  | [] => ""
  | (name, v) :: rest =>
    layout.separator ++ writtenText name ++ ": " ++ written layout v ++ writtenFields layout rest

end

def write (v : Json) (indent : Option Nat) : String := written (.ofIndent? indent) v

end Allowance.Json
