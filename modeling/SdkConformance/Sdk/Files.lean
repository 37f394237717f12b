import SdkConformance.Sdk.Registry
import SdkConformance.Zip.Jar

/-!
# Files

Everything that is read from a disk goes through `Files`, which answers what a path leads to.

* `Files.bytes`, `Files.text`, `Files.isFile`: the contents of a file;
* `Files.loader`: opens jars; `VersionRegistry.ofFile`: the registry of a properties file;
* `FileTree`: files below a working directory, and how a path is followed among them.
-/

namespace SdkConformance

/-! ## 1. What paths lead to -/

/-- What a path can lead to. -/
inductive FileNode where
  | file (octets : Bytes)
  | directory

/-- What each path leads to. -/
abbrev Files := String → Except FileFault FileNode

namespace Files

/-- The octets of a file of which the contents are mapped; a directory is no device for that. -/
def bytes (files : Files) (path : String) : Except FileFault Bytes :=
  match files path with
  | .error fault => .error fault
  | .ok .directory => .error .noDevice
  | .ok (.file octets) => .ok octets

/-- The text of a file. -/
def text (files : Files) (path : String) : Except FileFault String :=
  match files path with
  | .error fault => .error fault
  | .ok .directory => .error .isDirectory
  | .ok (.file octets) =>
    match Utf8.decode? octets with
    | some s => .ok s
    | none => .error .notUtf8

/-- Whether the path leads to a file. -/
def isFile (files : Files) (path : String) : Bool :=
  match files path with
  | .ok (.file _) => true
  | _ => false

/-- The jar at a path. -/
def jar (files : Files) (path : String) : Except Error Jar :=
  match files.bytes path with
  | .error fault => .error (.file fault)
  | .ok octets => Jar.ofBytes octets

/-- Opens the jars at paths. -/
def loader (files : Files) : Loader := fun path => (files.jar path).map Jar.read

end Files

/-- The registry of a properties file; its relative paths are seen from the file's directory. -/
def VersionRegistry.ofFile (files : Files) (path : String) : Except Error VersionRegistry :=
  match files.text path with
  | .error fault => .error (.file fault)
  | .ok text => VersionRegistry.ofProperties files.loader (Path.parent? path) text

/-! ## 2. Files below a working directory -/

/-- Files by the components of their paths from the working directory. -/
structure FileTree where
  files : List (List String × Bytes)

namespace FileTree

/-- The components of a path. -/
def components (path : String) : List String :=
  (Pieces.splitOn '/' path.toList).map String.ofList

/-- A tree of files with relative paths; of two files with one path the later one counts. -/
def ofFiles (files : List (String × Bytes)) : FileTree :=
  ⟨files.foldl (fun fs (path, octets) =>
    (((components path).filter fun c => c != "" && c != "."), octets) :: fs) []⟩

/-- What is at the components below the working directory. -/
def node? (t : FileTree) (names : List String) : Option FileNode :=
  match t.files.find? (·.1 == names) with
  | some (_, octets) => some (.file octets)
  | none => if names.isEmpty || t.files.any (names.isPrefixOf ·.1) then some .directory else none

/-- Where a path has led so far. -/
inductive Place where
  /-- At these components below the working directory. -/
  | below (names : List String)
  /-- In a directory above the working directory. -/
  | above

/-- Follows components from a place. Above the working directory no name is known. -/
def follow (t : FileTree) : Place → List String → Except FileFault FileNode
  | .above, [] => .ok .directory
  | .above, c :: rest =>
    if c = "" ∨ c = "." ∨ c = ".." then t.follow .above rest
    else if 255 < c.utf8ByteSize then .error .nameTooLong
    else .error .notFound
  | .below names, [] =>
    match t.node? names with
    | some node => .ok node
    | none => .error .notFound
  | .below names, c :: rest =>
    match t.node? names with
    | none => .error .notFound
    | some (.file _) => .error .notDirectory
    | some .directory =>
      if c = "" ∨ c = "." then t.follow (.below names) rest
      else if c = ".." then
        if names.isEmpty then t.follow .above rest else t.follow (.below names.dropLast) rest
      else if 255 < c.utf8ByteSize then .error .nameTooLong
      else t.follow (.below (names ++ [c])) rest

/-- What a path leads to. -/
def toFiles (t : FileTree) : Files := fun path =>
  if path.isEmpty then .error .notFound
  else if path.toList.contains '\x00' then
    .error (.other "file name contained an unexpected NUL byte")
  else if 4095 < path.utf8ByteSize then .error .nameTooLong
  else t.follow (if Path.isAbsolute path then .above else .below []) (components path)

end FileTree

end SdkConformance
