/-!
# Diagnostics

A diagnostic says how a declaration differs from the platform of one version. It names the class
and the method as the declaration does.
-/

namespace SdkConformance

/-- A difference between a declaration and a version of the platform. -/
inductive Diagnostic where
  /-- The version has no such class. -/
  | classNotFound (className : String) (version : UInt32)
  /-- The class has no method of this name and arity. -/
  | methodNotFound (className methodName : String) (version : UInt32)
  /-- One of the two methods is static and the other is not. -/
  | staticMismatch (className methodName : String) (version : UInt32) (declaredStatic : Bool)
  /-- The method of the platform returns `expected`, the declared one `actual`. -/
  | returnTypeMismatch (className methodName : String) (version : UInt32)
      (expected actual : String)
  deriving DecidableEq, Repr

namespace Diagnostic

/-- The word for the kind of difference. -/
def kind : Diagnostic → String
  | .classNotFound .. => "class_not_found"
  | .methodNotFound .. => "method_not_found"
  | .staticMismatch .. => "static_mismatch"
  | .returnTypeMismatch .. => "return_type_mismatch"

/-- The word for how grave a difference is. -/
def severity (_ : Diagnostic) : String := "ERROR"

/-- The version that the declaration differs from. -/
def version : Diagnostic → UInt32
  | .classNotFound _ v => v
  | .methodNotFound _ _ v => v
  | .staticMismatch _ _ v _ => v
  | .returnTypeMismatch _ _ v _ _ => v

/-- The class as declared. -/
def className : Diagnostic → String
  | .classNotFound c _ => c
  | .methodNotFound c _ _ => c
  | .staticMismatch c _ _ _ => c
  | .returnTypeMismatch c _ _ _ _ => c

/-- The method as declared, where the difference is one of the method. -/
def methodName? : Diagnostic → Option String
  | .classNotFound .. => none
  | .methodNotFound _ m _ => some m
  | .staticMismatch _ m _ _ => some m
  | .returnTypeMismatch _ m _ _ _ => some m

/-- What is reported. -/
def message : Diagnostic → String
  | .classNotFound c v => s!"No such class {c} in SDK level {v}"
  | .methodNotFound c m v => s!"No such method {c}.{m} in SDK level {v}"
  | .staticMismatch c m v declaredStatic =>
    let word := if declaredStatic then "static" else "not static"
    s!"Implementation of {c}.{m} is {word} unlike the method in SDK level {v}"
  | .returnTypeMismatch c m v expected actual =>
    s!"Implementation of {c}.{m} has a return type of {actual}, not {expected} as in SDK level {v}"

end Diagnostic

end SdkConformance
