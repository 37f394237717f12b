import SdkConformance.Declaration.Diagnostic
import SdkConformance.Declaration.Method
import SdkConformance.Sdk.Registry

/-!
# Validation of declared methods

A declaration is checked against every version in a range, in ascending order: its class must be
there, the class must have a method of its name and arity, and the two must agree on being static
and on what they return. An archive that cannot be opened ends the check.

* `DeclaredMethod.compare`: the differences from the facts of the platform's method;
* `VersionRegistry.validate`: the differences of a declaration, over its effective range;
* `VersionRegistry.validateAll`: those of several declarations, one list for each.
-/

namespace SdkConformance

/-! ## 1. One version -/

/-- The differences from the method that the platform of a version has. -/
def DeclaredMethod.compare (m : DeclaredMethod) (reference : MethodFacts) (version : UInt32) :
    List Diagnostic :=
  (if m.isStatic != reference.isStatic then
    [.staticMismatch m.className m.name version m.isStatic] else []) ++
  (if m.returnType != reference.returnType then
    [.returnTypeMismatch m.className m.name version reference.returnType m.returnType] else [])

/-- The differences from the class that a version has, if it has it. -/
def DeclaredMethod.check (m : DeclaredMethod) (version : UInt32) :
    Option SignatureTable → List Diagnostic
  | none => [.classNotFound m.className version]
  | some table =>
    match (table.find m.key).facts? with
    | none => [.methodNotFound m.className m.name version]
    | some reference => m.compare reference version

/-- Checks a declaration against the version of an archive. -/
def ReferenceArchive.validate (m : DeclaredMethod) (a : ReferenceArchive) :
    Except Error (List Diagnostic) × ReferenceArchive :=
  match a.lookupClass m.className with
  | (.error e, b) => (.error e, b)
  | (.ok table, b) => (.ok (m.check a.version table), b)

@[simp] theorem ReferenceArchive.version_validate (m : DeclaredMethod) (a : ReferenceArchive) :
    (a.validate m).2.version = a.version := by
  have h := version_lookupClass a m.className
  unfold validate
  split <;> rename_i hb <;> rw [hb] at h <;> exact h

namespace VersionRegistry

/-! ## 2. Ranges of versions -/

/-- Checks a declaration against every version in `range`, whatever it is meant for. -/
def validateRange (r : VersionRegistry) (m : DeclaredMethod) (range : SdkRange) :
    Except Error (List Diagnostic) × VersionRegistry :=
  let (result, r') := r.visit range.selects (·.validate m) (ReferenceArchive.version_validate m)
  (result.map List.flatten, r')

/-- Checks a declaration against every version that it is meant for. -/
def validate (r : VersionRegistry) (m : DeclaredMethod) :
    Except Error (List Diagnostic) × VersionRegistry :=
  r.validateRange m m.effectiveRange

/-- Checks a declaration against one version; there is no answer if it is not configured. -/
def validateVersion (r : VersionRegistry) (m : DeclaredMethod) (version : UInt32) :
    Except Error (Option (List Diagnostic)) × VersionRegistry :=
  r.onVersion version (·.validate m) (ReferenceArchive.version_validate m)

/-! ## 3. Batches -/

/-- Checks declarations one after the other, each over its effective range, and answers a list
    for each; the first archive that cannot be opened ends the batch. -/
def validateAll (r : VersionRegistry) :
    List DeclaredMethod → Except Error (List (List Diagnostic)) × VersionRegistry
  | [] => (.ok [], r)
  | m :: ms =>
    match r.validate m with
    | (.error e, r') => (.error e, r')
    | (.ok ds, r') =>
      let (result, later) := r'.validateAll ms
      (result.map (ds :: ·), later)

end VersionRegistry

end SdkConformance
