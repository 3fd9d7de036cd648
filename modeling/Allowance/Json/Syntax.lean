/-! # Flaws of JSON text

A text that is not JSON is refused with the flaw that stopped the reader and the place where it
stopped: the line, the column, and the count of characters before it.
-/

namespace Allowance.Json

inductive Flaw
  | missingValue
  | missingName
  | missingColon
  | missingComma
  | openText
  | controlCharacter
  | badEscape
  | badUnicodeEscape
  | extraData
  | byteOrderMark
  deriving DecidableEq

def Flaw.text : Flaw → String
  | .missingValue => "Expecting value"
  | .missingName => "Expecting property name enclosed in double quotes"
  | .missingColon => "Expecting ':' delimiter"
  | .missingComma => "Expecting ',' delimiter"
  | .openText => "Unterminated string starting at"
  | .controlCharacter => "Invalid control character at"
  | .badEscape => "Invalid \\escape"
  | .badUnicodeEscape => "Invalid \\uXXXX escape"
  | .extraData => "Extra data"
  | .byteOrderMark => "Unexpected UTF-8 BOM (decode using utf-8-sig)"

/-- A flaw and its place; lines and columns are counted from one. -/
structure SyntaxError where
  flaw : Flaw
  line : Nat
  column : Nat
  offset : Nat
  deriving DecidableEq

def SyntaxError.locate (flaw : Flaw) (text : List Char) (offset : Nat) : SyntaxError :=
  let before := text.take offset
  { flaw
    line := before.count '\n' + 1
    column := (before.reverse.takeWhile (· != '\n')).length + 1
    offset }

inductive ReadError
  | malformed (e : SyntaxError)
  | longNumber
  | tooDeep
  deriving DecidableEq

end Allowance.Json
