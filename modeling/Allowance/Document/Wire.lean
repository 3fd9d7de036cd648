import Allowance.Document.Basic
import Allowance.Json.Writer

/-! # The wire form of documents

A document is exchanged as a JSON object. Every field is written, but an open end of the validity
window is left out.
-/

namespace Allowance

def Condition.toJson (c : Condition) : Json := .object [
  ("type", .string "STATIC"),
  ("resource", .string c.resource.text),
  ("comparator", .string c.test.comparator.word),
  ("reference", c.test.reference)]

def Permission.toJson (p : Permission) : Json := .object [
  ("effect", .string p.effect.word),
  ("chainId", .string p.chain),
  ("type", .string p.action.word),
  ("conditions", .array (p.conditions.map Condition.toJson))]

def Scope.toJson (s : Scope) : Json := .object [
  ("name", s.name),
  ("description", s.description),
  ("required", .bool s.required),
  ("permissions", .array (s.permissions.map Permission.toJson))]

namespace Document

def numberField (name : String) (n : Option Number) : Json.Fields :=
  match n with
  | some n => [(name, .number n)]
  | none => []

def toJson (d : Document) : Json := .object <|
  [("partnerId", d.partner)] ++ numberField "validFrom" d.validFrom ++
    numberField "validTo" d.validTo ++ [("scopes", .array (d.scopes.map Scope.toJson))]

def format (d : Document) (indent : Option Nat) : String := d.toJson.write indent

def displayIndent : Nat := 2

def display (d : Document) : String := d.format (some displayIndent)

end Document

end Allowance
