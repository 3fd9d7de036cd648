import Allowance.Text.Lowercase

/-! # Wallet addresses

An address is `0x` and forty hexadecimal digits in either case. Letter case carries no meaning:
addresses are looked up and compared by their key, which is in small letters.
-/

namespace Allowance.Address

def isHexDigit (c : Char) : Bool :=
  ('0' ≤ c && c ≤ '9') || ('a' ≤ c && c ≤ 'f') || ('A' ≤ c && c ≤ 'F')

def digitCount : Nat := 40

def isAddress (s : String) : Bool :=
  match s.toList with
  | '0' :: 'x' :: rest => rest.length == digitCount && rest.all isHexDigit
  | _ => false

/-- What an address is looked up and compared by. -/
def key (s : String) : String := Text.lowercase s

def shownLength : Nat := 10

/-- An address as log lines show it: cut after ten characters. -/
def short (s : String) : String :=
  let cs := s.toList
  if shownLength < cs.length then String.ofList (cs.take shownLength) ++ "…" else s

end Allowance.Address
