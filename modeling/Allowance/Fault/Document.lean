import Allowance.Action
import Allowance.Json.Display
import Allowance.Json.Syntax

/-! # Why a document is refused

A policy document that does not have the wire shape, or breaks a rule of documents, is refused
with the first cause that is found.
-/

namespace Allowance

inductive DocumentError
  | notJson (e : Json.SyntaxError)
  | notObject (v : Json)
  | missing (part field : String)
  | unknownWord (what : String) (v : Json) (expected : List String)
  | unknownResource (v : Json)
  | notSequence (c : Comparator) (reference : Json)
  | notNumeric (c : Comparator) (reference : Json)
  | notComparable (reference : Json)
  | emptyChain (v : Json)
  | repeatedPermission (scope : Json) (e : Effect) (a : Action) (chain : String)
  | requiredNotBoolean (scope v : Json)
  | duplicateScopes (names : List String)
  | badTimestamp (label : String) (v : Json)
  | invertedWindow

def Json.SyntaxError.message (e : Json.SyntaxError) : String :=
  e.flaw.text ++ ": line " ++ Text.natText e.line ++ " column " ++ Text.natText e.column ++
    " (char " ++ Text.natText e.offset ++ ")"

def DocumentError.message : DocumentError → String
  | notJson e => "policy document is not valid JSON: " ++ e.message
  | notObject v => "policy document must be an object, got " ++ v.kind
  | missing part field => part ++ " is missing " ++ Text.quoted field
  | unknownWord what v expected =>
    "unknown " ++ what ++ " " ++ v.shown ++
      " (expected one of: " ++ ", ".intercalate expected ++ ")"
  | unknownResource v => "unknown condition resource " ++ v.shown
  | notSequence c r => c.word ++ " requires a sequence of strings, got " ++ r.shownFixed
  | notNumeric c r => c.word ++ " requires a numeric reference, got " ++ r.shownFixed
  | notComparable r => "EQUALS requires a number or string reference, got " ++ r.shownFixed
  | emptyChain v => "permission chainId must be a non-empty string, got " ++ v.shown
  | repeatedPermission scope e a chain =>
    "scope " ++ scope.shown ++ " lists " ++ e.word ++ "/" ++ a.word ++ " on chain " ++ chain ++
      " more than once; merge the conditions instead"
  | requiredNotBoolean scope v =>
    "scope " ++ scope.shown ++ ": 'required' must be a boolean, got " ++ v.shown
  | duplicateScopes names => "duplicate scope names: " ++ ", ".intercalate names
  | badTimestamp label v => label ++ " must be a number, got " ++ v.shown
  | invertedWindow => "validTo precedes validFrom"

end Allowance
