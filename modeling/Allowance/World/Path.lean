/-! # Paths

A path is written with single slashes and without components that are a single dot. Two slashes at
its start have a meaning of their own and stay. A path without components is a dot.
-/

namespace Allowance.Path

/-- The slashes at the start of a path that count. -/
def root (path : String) : String :=
  match path.toList.takeWhile (· == '/') with
  | [] => ""
  | ['/', '/'] => "//"
  | _ => "/"

def components (path : String) : List String :=
  (path.splitOn "/").filter fun part => part != "" && part != "."

def normal (path : String) : String :=
  let spelled := root path ++ "/".intercalate (components path)
  if spelled.isEmpty then "." else spelled

/-- The directories that a path in its one spelling leads through, the outermost first. -/
def ancestors (path : String) : List String :=
  let names := path.splitOn "/"
  ((List.range names.length).map fun n => "/".intercalate (names.take n)).filter (!·.isEmpty)

end Allowance.Path
