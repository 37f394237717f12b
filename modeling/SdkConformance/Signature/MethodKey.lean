import SdkConformance.ClassFile.Basic
import SdkConformance.Text.Order

/-!
# What a method is looked up by

A method is looked up by its name and the canonical names of its parameter types. The erased key
forgets the types and keeps their number: every parameter is `java.lang.Object` in it.
-/

namespace SdkConformance

/-- A method name with canonical parameter type names. -/
structure MethodKey where
  name : String
  params : List String
  deriving DecidableEq, Hashable, Repr

namespace MethodKey

/-- The type that stands for every parameter of an erased key. -/
def erasedType : String := "java.lang.Object"

/-- The number of parameters. -/
def arity (k : MethodKey) : Nat := k.params.length

/-- The key in which every parameter type is forgotten. -/
def erase (k : MethodKey) : MethodKey := ⟨k.name, List.replicate k.params.length erasedType⟩

/-- The key of a method of a class file. -/
def ofEntry (m : MethodEntry) : MethodKey := ⟨m.name, m.paramNames⟩

/-- The key as a text, `name(first, second)`. -/
def text (k : MethodKey) : String := k.name ++ "(" ++ ", ".intercalate k.params ++ ")"

/-- The order of keys: by name, then by parameter types one after the other. -/
def order (k l : MethodKey) : Ordering :=
  (textOrder k.name l.name).then (lexicographic textOrder k.params l.params)

@[simp] theorem name_erase (k : MethodKey) : k.erase.name = k.name := rfl

@[simp] theorem arity_erase (k : MethodKey) : k.erase.arity = k.arity := by
  simp [erase, arity]

@[simp] theorem erase_erase (k : MethodKey) : k.erase.erase = k.erase := by
  simp [erase]

/-- Keys are erased to the same key exactly when they have the same name and arity. -/
theorem erase_eq_erase_iff {k l : MethodKey} :
    k.erase = l.erase ↔ k.name = l.name ∧ k.arity = l.arity := by
  simp [erase, arity]

end MethodKey

end SdkConformance
