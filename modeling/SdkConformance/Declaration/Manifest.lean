import SdkConformance.Declaration.Method
import SdkConformance.Json.Document
import SdkConformance.Json.Record

/-!
# Manifests

A manifest is a JSON document with the declarations that are to be checked. Class and name of a
declaration are required; without parameters, a return type or bounds it has no parameters,
returns nothing, is not static and is meant for every version. A negative bound is none.

* `Manifest.parse?`: the declarations of a manifest.
-/

namespace SdkConformance

/-- Declarations in the order of the document. -/
structure Manifest where
  methods : List DeclaredMethod
  deriving DecidableEq, Repr

namespace Manifest

/-- The fields of a declaration, in the order in which an array holds them. -/
def methodFields : List String :=
  ["class", "name", "params", "static", "returns", "min_sdk", "max_sdk", "class_min_sdk",
   "class_max_sdk"]

/-- A bound: an integer of 32 bits. -/
def bound? : JsonValue → Option Int := JsonValue.integerBetween? (-2147483648) 2147483647

/-- A list of texts. -/
def texts? (v : JsonValue) : Option (List String) := do (← v.array?).mapM JsonValue.text?

/-- A declaration. -/
def method? (v : JsonValue) : Option DeclaredMethod := do
  match ← v.fields? methodFields with
  | [className, name, params, isStatic, returnType, low, high, classLow, classHigh] =>
    return {
      className := ← (← className).text?
      name := ← (← name).text?
      params := ← JsonValue.optional? [] texts? params
      isStatic := ← JsonValue.optional? false JsonValue.bool? isStatic
      returnType := ← JsonValue.optional? "void" JsonValue.text? returnType
      range := .ofInts (← JsonValue.optional? (-1) bound? low)
        (← JsonValue.optional? (-1) bound? high)
      classRange := .ofInts (← JsonValue.optional? (-1) bound? classLow)
        (← JsonValue.optional? (-1) bound? classHigh) }
  | _ => none

/-- The manifest that a value is. -/
def ofJson? (v : JsonValue) : Option Manifest := do
  match ← v.fields? ["methods"] with
  | [some methods] => return ⟨← (← methods.array?).mapM method?⟩
  | _ => none

/-- The manifest that a text is. -/
def parse? (text : String) : Option Manifest := (JsonValue.parse? text).bind ofJson?

end Manifest

end SdkConformance
