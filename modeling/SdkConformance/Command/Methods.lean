import SdkConformance.Command.Failure
import SdkConformance.Json.Printer
import SdkConformance.Sdk.Files
import SdkConformance.Text.Columns

/-!
# Listing the methods of a class

* `MethodListing.find`: the class of a version of a registry;
* `MethodListing.text`, `MethodListing.json`: the two forms of the listing.
-/

namespace SdkConformance.Command

/-- A class of the platform of a version. -/
structure MethodListing where
  version : UInt32
  classFile : ClassFile
  deriving DecidableEq, Repr

namespace MethodListing

/-! ## 1. Finding the class -/

/-- The class of a name in the archive of a version. -/
def find (r : VersionRegistry) (version : UInt32) (className : String) :
    Except Failure MethodListing :=
  match r.get? version with
  | none => .error (.notConfigured version r.versions)
  | some a =>
    match (a.classFile className).1 with
    | .error e => .error (.unreadable version e)
    | .ok none => .error (.noClass className version)
    | .ok (some c) => .ok ⟨version, c⟩

/-- The same in the versions of a properties file. -/
def ofFiles (files : Files) (sdks : String) (version : UInt32) (className : String) :
    Except Failure MethodListing :=
  match VersionRegistry.ofFile files sdks with
  | .error e => .error (.noRegistry sdks e)
  | .ok r => find r version className

/-! ## 2. Forms of the listing -/

/-- The modifiers of a method. -/
def accessText (m : MethodEntry) : String := " ".intercalate m.access.words

/-- The columns of the table of methods. -/
def columns : List Column := [⟨"ACCESS", .left⟩, ⟨"RETURNS", .left⟩, ⟨"METHOD", .left⟩]

/-- The row of a method. -/
def row (m : MethodEntry) : List String := [accessText m, m.returnName, (MethodKey.ofEntry m).text]

/-- The lines of the listing. -/
def text (l : MethodListing) : List String :=
  let c := l.classFile
  let parent := match c.superName with
    | some parent => " extends " ++ parent
    | none => ""
  let count := c.methods.length
  s!"{c.name}{parent} (SDK {l.version})" ::
    (Columns.lines columns (c.methods.map row)).map ("  " ++ ·) ++ ["", s!"{count} methods"]

/-- A method as an object. -/
def methodJson (m : MethodEntry) : JsonValue :=
  .ofFields [("access", .ofText (accessText m)), ("is_static", .bool m.isStatic),
    ("return_type", .ofText m.returnName), ("name", .ofText m.name),
    ("params", .array (m.paramNames.map .ofText)), ("descriptor", .ofText m.descriptor)]

/-- The listing as an object. -/
def json (l : MethodListing) : JsonValue :=
  let c := l.classFile
  .ofFields [("sdk", .ofNat l.version.toNat), ("class", .ofText c.name),
    ("super_class", .ofText? c.superName), ("methods", .array (c.methods.map methodJson)),
    ("count", .ofNat c.methods.length)]

end MethodListing

end SdkConformance.Command
