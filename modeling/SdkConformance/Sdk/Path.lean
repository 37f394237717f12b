/-!
# Paths

A path is a text with slashes between its components. Nothing here looks at a disk.

* `Path.join`: a path seen from a base; an absolute path does not depend on the base;
* `Path.parent?`: the path of the directory that a path's last component is in.
-/

namespace SdkConformance.Path

/-- A path that starts at the root. -/
def isAbsolute (path : String) : Bool := path.toList.head? == some '/'

/-- The path as seen from `base`: a slash goes between them unless the base is empty or ends in
    one, and an absolute path replaces the base. -/
def join (base path : String) : String :=
  if isAbsolute path then path
  else if base.isEmpty || base.toList.getLast? == some '/' then base ++ path
  else base ++ "/" ++ path

/-! ## 1. The last component

The functions of this section work on the reversed characters, so that the end comes first. -/

/-- Drops slashes and components `.` from the end, down to the last other component. -/
def dropIdle : List Char → List Char
  | [] => []
  | ['.'] => []
  | '/' :: r => dropIdle r
  | '.' :: '/' :: r => dropIdle r
  | r => r

/-- Drops the component at the end, but not the slash before it. -/
def dropComponent (r : List Char) : List Char := r.dropWhile (· != '/')

/-- The path without its last component; nothing if there is none to drop. A leading component
    `.` counts as one, a `.` further on does not. -/
def parent? (path : String) : Option String :=
  let cs := path.toList
  let root := isAbsolute path
  let current := cs == ['.'] || cs.take 2 == ['.', '/']
  let start := if root || current then 1 else 0
  let body := dropIdle (cs.drop start).reverse
  let finish (r : List Char) : String := String.ofList (cs.take start ++ r.reverse)
  if body.isEmpty then
    if current then some "" else none
  else
    let rest := dropComponent body
    some (finish (dropIdle rest))

end SdkConformance.Path
