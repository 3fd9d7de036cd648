/-! # Capitals that are written in ASCII

Names of actions are recognised in any letter case, by their capital form. Beside the ASCII
letters themselves ten characters have a capital form that is written in ASCII letters alone:
the dotless i, the long s, the sharp s and the Latin ligatures. A text that holds any other
character has a capital form outside ASCII, and so is no such name.
-/

namespace Allowance.Text

/-- The capital form of a character, if ASCII letters, digits and signs suffice to write it. -/
def asciiCapital? (c : Char) : Option (List Char) :=
  if c.toNat < 0x80 then some [c.toUpper]
  else if c.toNat = 0xdf then some ['S', 'S']
  else if c.toNat = 0x131 then some ['I']
  else if c.toNat = 0x17f then some ['S']
  else if c.toNat = 0xfb00 then some ['F', 'F']
  else if c.toNat = 0xfb01 then some ['F', 'I']
  else if c.toNat = 0xfb02 then some ['F', 'L']
  else if c.toNat = 0xfb03 then some ['F', 'F', 'I']
  else if c.toNat = 0xfb04 then some ['F', 'F', 'L']
  else if c.toNat = 0xfb05 || c.toNat = 0xfb06 then some ['S', 'T']
  else none

def asciiCapitals? (s : String) : Option String :=
  (s.toList.mapM asciiCapital?).map fun parts => String.ofList parts.flatten

end Allowance.Text
