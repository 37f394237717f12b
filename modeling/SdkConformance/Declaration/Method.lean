import SdkConformance.Sdk.Range
import SdkConformance.Signature.Table

/-!
# Declared methods

A declaration names a method of a platform class that is implemented elsewhere, and the versions
that the implementation is meant for: those of the declaration itself and those of its class.
Two names stand for methods that have no name of their own.
-/

namespace SdkConformance

/-- A declaration of a method. -/
structure DeclaredMethod where
  /-- The dotted name of the class that has the method. -/
  className : String
  name : String
  /-- The canonical names of the parameter types. -/
  params : List String := []
  isStatic : Bool := false
  /-- The canonical name of the return type. -/
  returnType : String := "void"
  range : SdkRange := .unbounded
  classRange : SdkRange := .unbounded
  deriving DecidableEq, Repr

namespace DeclaredMethod

/-- The name that the method has in class files. -/
def binaryName (m : DeclaredMethod) : String :=
  if m.name = "__constructor__" then "<init>"
  else if m.name = "__staticInitializer__" then "<clinit>"
  else m.name

/-- What the method is looked up by. -/
def key (m : DeclaredMethod) : MethodKey := ⟨m.binaryName, m.params⟩

/-- The facts that are compared. -/
def facts (m : DeclaredMethod) : MethodFacts := ⟨m.isStatic, m.returnType⟩

/-- The versions that the declaration is meant for. -/
def effectiveRange (m : DeclaredMethod) : SdkRange := .effective m.range m.classRange

end DeclaredMethod

end SdkConformance
