import SdkConformance.Command.Failure
import SdkConformance.Json.Printer
import SdkConformance.Sdk.Files
import SdkConformance.Text.Columns

/-!
# Listing the configured versions

* `VersionRow.ofRegistry`: the versions in a range, and whether their archives are there;
* `VersionRow.text`, `VersionRow.json`: the two forms of the listing.
-/

namespace SdkConformance.Command

/-- A version of the listing. -/
structure VersionRow where
  version : UInt32
  path : String
  /-- Whether there is a file at the path. -/
  isPresent : Bool
  deriving DecidableEq, Repr

namespace VersionRow

/-! ## 1. Versions -/

/-- The versions of a registry in a range, in ascending order. -/
def ofRegistry (files : Files) (r : VersionRegistry) (range : SdkRange) : List VersionRow :=
  (r.inRange range).map fun a => ⟨a.version, a.path, files.isFile a.path⟩

/-- The versions of a properties file in a range. -/
def ofFiles (files : Files) (sdks : String) (range : SdkRange) :
    Except Failure (List VersionRow) :=
  match VersionRegistry.ofFile files sdks with
  | .error e => .error (.noRegistry sdks e)
  | .ok r => .ok (ofRegistry files r range)

/-! ## 2. Forms of the listing -/

/-- The columns of the table of versions; what is missing is marked in the last one. -/
def columns : List Column := [⟨"SDK", .right⟩, ⟨"ARCHIVE", .left⟩, ⟨"", .left⟩]

/-- The row of a version. -/
def row (v : VersionRow) : List String :=
  [toString v.version, v.path, if v.isPresent then "" else "(missing)"]

/-- The lines of the listing. -/
def text (vs : List VersionRow) : List String := Columns.lines columns (vs.map row)

/-- The listing as an array. -/
def json (vs : List VersionRow) : JsonValue :=
  .array (vs.map fun v => .ofFields [("version", .ofNat v.version.toNat),
    ("path", .ofText v.path), ("exists", .bool v.isPresent)])

end VersionRow

end SdkConformance.Command
