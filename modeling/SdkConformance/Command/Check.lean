import SdkConformance.Command.Failure
import SdkConformance.Declaration.Manifest
import SdkConformance.Declaration.Validation
import SdkConformance.Json.Printer
import SdkConformance.Sdk.Files
import SdkConformance.Text.Columns

/-!
# Checking a manifest

The declarations of a manifest are checked against every version that each is meant for. The check
passes if nothing differs.

* `CheckReport.evaluate`: the differences, from a registry and the declarations;
* `CheckReport.ofFiles`: the same from files; `CheckReport.failure?`: whether the check failed;
* `CheckReport.text`, `CheckReport.json`: the two forms of the report.
-/

namespace SdkConformance.Command

/-- The result of a check that was not aborted. -/
structure CheckReport where
  /-- The path of the manifest. -/
  manifest : String
  /-- How many declarations there are. -/
  methods : Nat
  /-- How many of them do not differ from any version. -/
  passed : Nat
  diagnostics : List Diagnostic
  deriving DecidableEq, Repr

namespace CheckReport

/-! ## 1. Checking -/

/-- The report of the differences that were found for each declaration. -/
def ofResults (manifest : String) (results : List (List Diagnostic)) : CheckReport :=
  ⟨manifest, results.length, (results.filter List.isEmpty).length, results.flatten⟩

/-- Checks declarations against the versions of a registry. -/
def evaluate (r : VersionRegistry) (manifest : String) (ms : List DeclaredMethod) :
    Except Failure CheckReport :=
  match (r.validateAll ms).1 with
  | .error e => .error (.aborted e)
  | .ok results => .ok (ofResults manifest results)

/-- Checks the manifest at a path against the versions of a properties file. -/
def ofFiles (files : Files) (sdks manifest : String) : Except Failure CheckReport :=
  match VersionRegistry.ofFile files sdks with
  | .error e => .error (.noRegistry sdks e)
  | .ok r =>
    match files.text manifest with
    | .error fault => .error (.manifestUnreadable manifest fault)
    | .ok text =>
      match Manifest.parse? text with
      | none => .error (.manifestInvalid manifest)
      | some m => evaluate r manifest m.methods

/-- The failure of a check that found differences. -/
def failure? (c : CheckReport) : Option Failure :=
  if c.diagnostics.isEmpty then none
  else some (.problems c.diagnostics.length (c.methods - c.passed) c.methods)

/-! ## 2. Forms of the report -/

/-- The columns of the table of differences. -/
def columns : List Column := [⟨"SDK", .right⟩, ⟨"KIND", .left⟩, ⟨"MESSAGE", .left⟩]

/-- The row of a difference. -/
def row (d : Diagnostic) : List String := [toString d.version, d.kind, d.message]

/-- The lines of the report. -/
def text (c : CheckReport) : List String :=
  let status := if c.diagnostics.isEmpty then "PASS" else "FAIL"
  let counts := s!"({c.passed}/{c.methods} methods clean)"
  let table :=
    if c.diagnostics.isEmpty then [] else Columns.lines columns (c.diagnostics.map row)
  (status ++ "  " ++ c.manifest ++ "  " ++ counts) :: table.map ("  " ++ ·)

/-- A difference as an object; it has no method if the class is missing. -/
def diagnosticJson (d : Diagnostic) : JsonValue :=
  .ofFields (
    [("kind", .ofText d.kind), ("severity", .ofText d.severity),
      ("version", .ofNat d.version.toNat), ("class", .ofText d.className)] ++
    (d.methodName?.toList.map fun m => ("method", .ofText m)) ++
    [("message", .ofText d.message)])

/-- The report as an object. -/
def json (c : CheckReport) : JsonValue :=
  .ofFields [("manifest", .ofText c.manifest), ("methods", .ofNat c.methods),
    ("passed", .ofNat c.passed), ("diagnostics", .array (c.diagnostics.map diagnosticJson))]

end CheckReport

end SdkConformance.Command
