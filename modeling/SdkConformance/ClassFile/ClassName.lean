import SdkConformance.Text.Pieces

/-!
# Names of classes

Inside a class file a name has slashes between its segments, everywhere else dots.

* `ClassName.dotted`: every slash of an internal name becomes a dot;
* `ClassName.canonical`: the segments between the slashes, joined with dots;
* `ClassName.entry`: the archive entry that holds the class of a dotted name.
-/

namespace SdkConformance.ClassName

/-- The internal name with a dot for every slash. -/
def dotted (internal : String) : String :=
  String.ofList (internal.toList.map fun c => if c = '/' then '.' else c)

/-- The segments of the internal name, joined with dots. -/
def canonical (internal : String) : String :=
  String.ofList (Pieces.join '.' (Pieces.splitOn '/' internal.toList))

/-- The entry of an archive in which the class is looked for. -/
def entry (name : String) : String :=
  String.ofList (name.toList.map fun c => if c = '.' then '/' else c) ++ ".class"

end SdkConformance.ClassName
