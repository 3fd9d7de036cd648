import Allowance.Text.Blank
import Allowance.Text.Digit

/-! # Numerals

Whole numbers are written in decimal digits without leading zeros. A numeral that is read may use
the digits of any script, may have blanks around it and single underscores between its digits. The
separators among the control characters do not count as blank there.
-/

namespace Allowance.Text

def digitChar (n : Nat) : Char := Char.ofNat ('0'.toNat + n)

def digitsBefore (n : Nat) (rest : List Char) : List Char :=
  if n < 10 then digitChar n :: rest
  else digitsBefore (n / 10) (digitChar (n % 10) :: rest)

def digits (n : Nat) : List Char := digitsBefore n []

def natText (n : Nat) : String := String.ofList (digits n)

def intText (n : Int) : String := if n < 0 then "-" ++ natText n.natAbs else natText n.natAbs

def isAsciiDigit (c : Char) : Bool := '0' ≤ c && c ≤ '9'

def digitsValue (cs : List Char) : Nat :=
  cs.foldl (fun n c => 10 * n + (c.toNat - '0'.toNat)) 0

def spanDigits (cs : List Char) : List Char × List Char := cs.span isAsciiDigit

/-- A character of a numeral; a digit or a blank outside ASCII is as good as the one in ASCII. -/
def plainChar (c : Char) : Char :=
  if c.toNat < 0x80 then c
  else if isBlank c then ' '
  else match digit? c with
    | some n => digitChar n
    | none => c

def plainNumeral (s : String) : List Char := s.toList.map plainChar

def isNumeralSpace (c : Char) : Bool :=
  c = ' ' || ('\t' ≤ c && c ≤ '\r')

def numeralCore (s : String) : List Char :=
  ((((plainNumeral s).dropWhile isNumeralSpace).reverse).dropWhile isNumeralSpace).reverse

/-- Drops underscores that stand between two digits; any other underscore is refused. The flag
says whether the character before is a digit. -/
def dropUnderscores (afterDigit : Bool) : List Char → Option (List Char)
  | [] => some []
  | '_' :: c :: rest =>
    if afterDigit && isAsciiDigit c then (dropUnderscores true rest).map (c :: ·) else none
  | c :: rest =>
    if c = '_' then none else (dropUnderscores (isAsciiDigit c) rest).map (c :: ·)

def takeSign : List Char → Bool × List Char
  | '-' :: rest => (true, rest)
  | '+' :: rest => (false, rest)
  | cs => (false, cs)

def maxDigits : Nat := 4300

def readInt? (s : String) : Option Int := do
  let (negative, cs) := takeSign (← dropUnderscores false (numeralCore s))
  if cs.isEmpty || !cs.all isAsciiDigit || maxDigits < cs.length then none
  else
    let n : Int := digitsValue cs
    some (if negative then -n else n)

end Allowance.Text
