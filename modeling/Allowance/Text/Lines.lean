/-! # Lines

A line ends at a line feed, at a carriage return, or at the two in this order. Text files are
read with every line end turned into a single line feed.
-/

namespace Allowance.Text

def unifyLineEnds : List Char → List Char
  | [] => []
  | '\r' :: '\n' :: rest => '\n' :: unifyLineEnds rest
  | '\r' :: rest => '\n' :: unifyLineEnds rest
  | c :: rest => c :: unifyLineEnds rest

/-- The lines between line feeds, without them; a feed at the very end closes the last line. -/
def splitLines : List Char → List (List Char)
  | [] => []
  | '\n' :: rest => [] :: splitLines rest
  | c :: rest =>
    match splitLines rest with
    | [] => [[c]]
    | line :: lines => (c :: line) :: lines

def lines (s : String) : List String :=
  (splitLines (unifyLineEnds s.toList)).map String.ofList

end Allowance.Text
