import SdkConformance.Error
import SdkConformance.Text.Pieces
import SdkConformance.Text.WhiteSpace

/-!
# Failed commands

A command that fails says what it could not do and, below that, the causes, outermost first.

* `Failure.message`, `Failure.causes`: the wording;
* `Failure.report`: the whole text, in which causes are indented and, if there are several,
  numbered.
-/

namespace SdkConformance.Command

/-- Why a command failed. -/
inductive Failure where
  /-- The properties file of the versions cannot be used. -/
  | noRegistry (path : String) (cause : Error)
  /-- The manifest cannot be read. -/
  | manifestUnreadable (path : String) (cause : FileFault)
  /-- The manifest is none. -/
  | manifestInvalid (path : String)
  /-- An archive that is needed cannot be opened. -/
  | aborted (cause : Error)
  /-- Declarations differ from the platform: the number of differences, of declarations that
      differ, and of all. -/
  | problems (found failed methods : Nat)
  /-- The version is none of the known ones. -/
  | notConfigured (version : UInt32) (known : List UInt32)
  /-- The archive of the version cannot be opened. -/
  | unreadable (version : UInt32) (cause : Error)
  /-- The version has no such class. -/
  | noClass (className : String) (version : UInt32)
  deriving DecidableEq, Repr

namespace Failure

/-- What failed. -/
def message : Failure → String
  | .noRegistry path _ => s!"failed to load SDK table: {path}"
  | .manifestUnreadable path _ => s!"failed to read manifest: {path}"
  | .manifestInvalid path => s!"invalid manifest: {path}"
  | .aborted _ => "validation aborted"
  | .problems found failed methods => s!"{found} problem(s) in {failed} of {methods} method(s)"
  | .notConfigured version known =>
    let versions := ", ".intercalate (known.map toString)
    s!"SDK {version} is not configured (known: {versions})"
  | .unreadable version _ => s!"failed to read SDK {version}"
  | .noClass className version => s!"No such class {className} in SDK level {version}"

/-- The causes that an error is for a command. A file fault is told by the library and by the
    system. -/
def causesOf : Error → List String
  | .file fault => [fault.message, fault.message]
  | e => [e.asCause]

/-- The causes, outermost first. What is wrong with a manifest is not told. -/
def causes : Failure → List String
  | .noRegistry _ cause => causesOf cause
  | .manifestUnreadable _ fault => [fault.message]
  | .aborted cause => causesOf cause
  | .unreadable _ cause => causesOf cause
  | _ => []

/-- A cause behind a label; lines after the first one are indented to the same place. -/
def indented (label indent cause : String) : String :=
  let lines := (Pieces.splitOn '\n' cause.toList).map String.ofList
  label ++ ("\n" ++ indent).intercalate lines

/-- A number right-aligned in five places. -/
def numbered (i : Nat) : String :=
  let digits := toString i
  String.ofList (List.replicate (5 - digits.length) ' ') ++ digits ++ ": "

/-- The causes below their title. -/
def causeLines : List String → List String
  | [] => []
  | [cause] => ["", "Caused by:", indented "    " "    " cause]
  | causes =>
    "" :: "Caused by:" ::
      causes.zipIdx.map fun (cause, i) => indented (numbered i) "       " cause

/-- The report of a failure. Of an invalid manifest only the first line is told, and as other lines
    would follow it, it keeps its spaces. -/
def report (f : Failure) : String :=
  let title := "Error: " ++ f.message
  match f with
  | .manifestInvalid _ =>
    String.ofList (Pieces.dropReturn (title.toList.takeWhile (· != '\n')))
  | _ => trimEnd ("\n".intercalate (title :: causeLines f.causes))

end Failure

end SdkConformance.Command
