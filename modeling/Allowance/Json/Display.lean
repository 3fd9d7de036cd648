import Allowance.Json.Basic

/-! # Values in messages

Messages show values in a notation of their own: texts are quoted, null and the booleans are
capitalised words, arrays stand in square brackets and objects in braces.
-/

namespace Allowance.Json

open Text

mutual

def shown : Json → String
  | .null => "None"
  | .bool b => if b then "True" else "False"
  | .number n => n.text
  | .string s => quoted s
  | .array items => "[" ++ shownItems items ++ "]"
  | .object fields => "\x7b" ++ shownFields fields ++ "\x7d"

def shownItems : List Json → String
  | [] => ""
  | [v] => shown v
  | v :: rest => shown v ++ ", " ++ shownItems rest

def shownFields : List (String × Json) → String
  | [] => ""
  | [(name, v)] => quoted name ++ ": " ++ shown v
  | (name, v) :: rest => quoted name ++ ": " ++ shown v ++ ", " ++ shownFields rest

end

/-- A value as running text shows it: a text stands for itself. -/
def plain : Json → String
  | .string s => s
  | v => v.shown

/-- A value as messages show it where a fixed sequence is meant: an array stands in round brackets,
with a comma after a single item. -/
def shownFixed : Json → String
  | .array [v] => "(" ++ v.shown ++ ",)"
  | .array items => "(" ++ shownItems items ++ ")"
  | v => v.shown

end Allowance.Json
