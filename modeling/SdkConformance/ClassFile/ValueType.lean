import SdkConformance.ClassFile.ClassName

/-!
# Types of parameters and results

A value type is a primitive type, a class, or an array of either with one to 255 dimensions; a
method returns a value type or nothing. Each type has two texts:

* `name`, the canonical one that signatures are compared by: `int`, `java.lang.String[]`;
* `descriptor`, the one in class files: `I`, `[Ljava/lang/String;`.
-/

namespace SdkConformance

/-! ## 1. The types -/

/-- The types that are no class. -/
inductive Primitive where
  | byte
  | char
  | double
  | float
  | int
  | long
  | short
  | boolean
  deriving DecidableEq, Repr

/-- What an array can be made of. A class is given by its internal name. -/
inductive ElementType where
  | primitive (p : Primitive)
  | object (internalName : String)
  deriving DecidableEq, Repr

/-- The type of a field or a parameter. -/
inductive ValueType where
  | single (e : ElementType)
  | array (e : ElementType) (dimensions : UInt8)
  deriving DecidableEq, Repr

/-- What a method returns. -/
inductive ReturnType where
  | void
  | value (t : ValueType)
  deriving DecidableEq, Repr

/-- The types in the signature of a method. -/
structure MethodDescriptor where
  params : List ValueType
  result : ReturnType
  deriving DecidableEq, Repr

/-! ## 2. Canonical names -/

/-- The keyword of a primitive type. -/
def Primitive.name : Primitive → String
  | .byte => "byte"
  | .char => "char"
  | .double => "double"
  | .float => "float"
  | .int => "int"
  | .long => "long"
  | .short => "short"
  | .boolean => "boolean"

/-- The canonical name, dotted for a class. -/
def ElementType.name : ElementType → String
  | .primitive p => p.name
  | .object n => ClassName.canonical n

/-- The canonical name, with a pair of brackets for each dimension. -/
def ValueType.name : ValueType → String
  | .single e => e.name
  | .array e d => e.name ++ String.join (List.replicate d.toNat "[]")

/-- The canonical name of what is returned. -/
def ReturnType.name : ReturnType → String
  | .void => "void"
  | .value t => t.name

/-! ## 3. Descriptors -/

/-- The letter that stands for a primitive type. -/
def Primitive.letter : Primitive → Char
  | .byte => 'B'
  | .char => 'C'
  | .double => 'D'
  | .float => 'F'
  | .int => 'I'
  | .long => 'J'
  | .short => 'S'
  | .boolean => 'Z'

/-- The text of an element type in a descriptor. -/
def ElementType.descriptor : ElementType → String
  | .primitive p => p.letter.toString
  | .object n => "L" ++ n ++ ";"

/-- The text of a value type in a descriptor. -/
def ValueType.descriptor : ValueType → String
  | .single e => e.descriptor
  | .array e d => String.ofList (List.replicate d.toNat '[') ++ e.descriptor

/-- The text of a return type in a descriptor. -/
def ReturnType.descriptor : ReturnType → String
  | .void => "V"
  | .value t => t.descriptor

/-- The descriptor of a method: parameters in parentheses, then the result. -/
def MethodDescriptor.descriptor (d : MethodDescriptor) : String :=
  "(" ++ String.join (d.params.map ValueType.descriptor) ++ ")" ++ d.result.descriptor

/-! ## 4. Types that have a descriptor -/

/-- A class name that the descriptor format can hold: not empty, and without its terminator. -/
def ElementType.WellFormed : ElementType → Prop
  | .primitive _ => True
  | .object n => n ≠ "" ∧ ';' ∉ n.toList

/-- An array has at least one dimension. -/
def ValueType.WellFormed : ValueType → Prop
  | .single e => e.WellFormed
  | .array e d => e.WellFormed ∧ d ≠ 0

def ReturnType.WellFormed : ReturnType → Prop
  | .void => True
  | .value t => t.WellFormed

/-- Every type in the signature has a descriptor. -/
def MethodDescriptor.WellFormed (d : MethodDescriptor) : Prop :=
  (∀ t ∈ d.params, t.WellFormed) ∧ d.result.WellFormed

instance (e : ElementType) : Decidable e.WellFormed := by
  cases e <;> unfold ElementType.WellFormed <;> infer_instance

instance (t : ValueType) : Decidable t.WellFormed := by
  cases t <;> unfold ValueType.WellFormed <;> infer_instance

instance (r : ReturnType) : Decidable r.WellFormed := by
  cases r <;> unfold ReturnType.WellFormed <;> infer_instance

instance (d : MethodDescriptor) : Decidable d.WellFormed := by
  unfold MethodDescriptor.WellFormed; infer_instance

end SdkConformance
