import Allowance.Json.Access
import Allowance.Json.Writer
import Allowance.Text.Lines

/-! # Files

The disk maps paths to contents. A file was either put there as text or written as state. State
is written as indented JSON, and reading that text gives the state back, so it is kept as a value.
A file can also be no text at all, when its bytes do not decode. A directory exists if it is known
to, or if a file lies in it.
-/

namespace Allowance

inductive Content
  | text (s : String)
  | state (v : Json)
  /-- Bytes that do not decode, and the lines that a reader gets before it comes upon them. -/
  | garbled (before : List String)

namespace Content

def stateIndent : Nat := 2

def text? : Content → Option String
  | text s => some s
  | state v => some (v.write (some stateIndent))
  | garbled _ => none

/-- The text of a file as programs read it, with every line end a line feed. -/
def read (c : Content) : Checked String :=
  match c.text? with
  | some s => .ok (String.ofList (Text.unifyLineEnds s.toList))
  | none => misuse .badValue

/-- The lines of a file as programs read them one after the other, until reading fails. -/
def lines : Content → List String
  | garbled before => before
  | c => (c.text?.map Text.lines).getD []

def toJson : Content → Checked Json
  | state v => .ok v
  | c => do Json.parse (← c.read)

end Content

structure Disk where
  files : List (String × Content) := []
  directories : List String := []

namespace Disk

def putFile : List (String × Content) → String → Content → List (String × Content)
  | [], path, content => [(path, content)]
  | (name, old) :: rest, path, content =>
    if name = path then (name, content) :: rest else (name, old) :: putFile rest path content

def write (d : Disk) (path : String) (content : Content) : Disk :=
  { d with files := putFile d.files path content }

def lookup (d : Disk) (path : String) : Option Content := d.files.lookup path

def isDirectory (d : Disk) (path : String) : Bool :=
  path == "." || path == "/" || (path.splitOn "/").all (· == "..") ||
    d.directories.contains path ||
    d.files.any fun file => (path.toList ++ ['/']).isPrefixOf file.1.toList

def maxNameBytes : Nat := 255

def maxPathBytes : Nat := 4095

/-- What stops the way along the names of a path after those that were walked. All names but the
last have to be directories. -/
def stopsAt (d : Disk) (path : String) : List String → List String → Option FileError
  | _, [] => none
  | walked, name :: rest =>
    let here := "/".intercalate (walked ++ [name])
    if maxNameBytes < name.utf8ByteSize then some (.nameTooLong path)
    else if rest.isEmpty then none
    else if here.isEmpty || d.isDirectory here then d.stopsAt path (walked ++ [name]) rest
    else if (d.lookup here).isSome then some (.notDirectory path)
    else some (.absent path)

def obstacle? (d : Disk) (path : String) : Option FileError :=
  if maxPathBytes < path.utf8ByteSize then some (.nameTooLong path)
  else d.stopsAt path [] (path.splitOn "/")

def open? (d : Disk) (path : String) : Checked (Option Content) :=
  match d.lookup path with
  | some content => .ok (some content)
  | none =>
    if d.isDirectory path then .error (.file (.isDirectory path))
    else match d.obstacle? path with
      | some (.nameTooLong name) => .error (.file (.nameTooLong name))
      | _ => .ok none

def hasNul (path : String) : Bool := path.toList.any fun c => c.toNat == 0

def read (d : Disk) (path : String) : Checked Content := do
  if hasNul path then misuse .badValue
  else match ← d.open? path with
    | some content => return content
    | none => .error (.file ((d.obstacle? path).getD (.absent path)))

def writeText (d : Disk) (path text : String) : Checked Disk := do
  if hasNul path then misuse .badValue
  else
    let _ ← d.open? path
    match d.obstacle? path with
    | some e => .error (.file e)
    | none => return d.write path (.text text)

def names (d : Disk) : List String := (d.files.map (·.1)).mergeSort (· ≤ ·)

end Disk

end Allowance
