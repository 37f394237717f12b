import SdkConformance.Command.Check
import SdkConformance.Command.Help
import SdkConformance.Command.Methods
import SdkConformance.Command.Versions

/-!
# Running the program

* `run`: what the program prints and how it ends, for arguments and the files it can see;
* `namedPaths`, `archivePaths`: the paths that it looks at.
-/

namespace SdkConformance.Command

/-- What the program printed, and how it ended. -/
structure Outcome where
  /-- Zero for success, one for a failed command, two for misuse. -/
  exit : Nat
  stdout : String
  /-- The report of a failed command. -/
  error : Option String
  deriving DecidableEq, Repr

namespace Outcome

/-- Lines, each with its end. -/
def unlines (lines : List String) : String := String.join (lines.map (· ++ "\n"))

/-- The end of a command that printed something and may have failed all the same. -/
def done (stdout : String) : Option Failure → Outcome
  | none => ⟨0, stdout, none⟩
  | some f => ⟨1, stdout, some f.report⟩

/-- The end of a command that failed before it printed anything. -/
def failed (f : Failure) : Outcome := done "" (some f)

/-- The end of a program that was asked for nothing it can do. -/
def ofStop : Stop → Outcome
  | .misuse => ⟨2, "", none⟩
  | .help topic => done (unlines topic.lines) none
  | .version => done (unlines [versionLine]) none

end Outcome

/-- What is printed of an answer, in the form that is asked for. -/
def printed (isJson : Bool) (json : JsonValue) (text : List String) : String :=
  Outcome.unlines (if isJson then [json.render] else text)

/-- Answers a request. -/
def Invocation.run (files : Files) (i : Invocation) : Outcome :=
  match i.request with
  | .check sdks manifest =>
    match CheckReport.ofFiles files sdks manifest with
    | .error f => .failed f
    | .ok c => .done (printed i.isJson c.json c.text) c.failure?
  | .methods sdks version className =>
    match MethodListing.ofFiles files sdks version className with
    | .error f => .failed f
    | .ok l => .done (printed i.isJson l.json l.text) none
  | .versions sdks range =>
    match VersionRow.ofFiles files sdks range with
    | .error f => .failed f
    | .ok vs => .done (printed i.isJson (VersionRow.json vs) (VersionRow.text vs)) none

/-- The paths that a request names. -/
def Request.namedPaths : Request → List String
  | .check sdks manifest => [sdks, manifest]
  | .methods sdks .. => [sdks]
  | .versions sdks _ => [sdks]

/-- The paths of the archives that a request may need, once its properties file is known. -/
def Request.archivePaths (files : Files) (request : Request) : List String :=
  let paths (sdks : String) (range : SdkRange) : List String :=
    match VersionRegistry.ofFile files sdks with
    | .ok r => (r.inRange range).map (·.path)
    | .error _ => []
  match request with
  | .check sdks _ => paths sdks .unbounded
  | .methods sdks version _ => paths sdks (.exactly version)
  | .versions sdks range => paths sdks range

/-- Runs the program with arguments. -/
def run (files : Files) (arguments : List String) : Outcome :=
  match Arguments.parse arguments with
  | .error stop => .ofStop stop
  | .ok i => i.run files

end SdkConformance.Command
