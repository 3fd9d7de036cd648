/-! # Blank characters

White space in the sense of Unicode, with the four separators that stand among the control
characters. Texts are trimmed of it at their ends, and numbers may be surrounded by it.
-/

namespace Allowance.Text

def isBlank (c : Char) : Bool :=
  let code := c.toNat
  (0x09 ≤ code && code ≤ 0x0d) || (0x1c ≤ code && code ≤ 0x20) || code == 0x85 || code == 0xa0 ||
  code == 0x1680 || (0x2000 ≤ code && code ≤ 0x200a) || code == 0x2028 || code == 0x2029 ||
  code == 0x202f || code == 0x205f || code == 0x3000

def trimLeft (cs : List Char) : List Char := cs.dropWhile isBlank

def trim (cs : List Char) : List Char := (trimLeft (trimLeft cs).reverse).reverse

def trimmed (s : String) : String := String.ofList (trim s.toList)

end Allowance.Text
