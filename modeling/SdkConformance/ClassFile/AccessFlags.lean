/-!
# Access and property flags

The flags of a class or a method are 16 bits. All of them are kept, known or not; the known ones
have names and are listed from the lowest bit up.
-/

namespace SdkConformance

/-- A flag with a name. -/
structure AccessFlag where
  mask : UInt16
  name : String
  deriving DecidableEq, Repr

/-- Whether the bits have the flag set. -/
def AccessFlag.isSet (flag : AccessFlag) (bits : UInt16) : Bool := bits &&& flag.mask == flag.mask

/-! ## 1. Classes -/

/-- The flags of a class, unknown bits included. -/
structure ClassAccess where
  bits : UInt16
  deriving DecidableEq, Repr

/-- The flags that a class can have. -/
def ClassAccess.known : List AccessFlag :=
  [⟨0x0001, "PUBLIC"⟩, ⟨0x0010, "FINAL"⟩, ⟨0x0020, "SUPER"⟩, ⟨0x0200, "INTERFACE"⟩,
   ⟨0x0400, "ABSTRACT"⟩, ⟨0x1000, "SYNTHETIC"⟩, ⟨0x2000, "ANNOTATION"⟩, ⟨0x4000, "ENUM"⟩,
   ⟨0x8000, "MODULE"⟩]

/-- The names of the known flags that are set. -/
def ClassAccess.names (a : ClassAccess) : List String :=
  (ClassAccess.known.filter (·.isSet a.bits)).map (·.name)

/-! ## 2. Methods -/

/-- The flags of a method, unknown bits included. -/
structure MethodAccess where
  bits : UInt16
  deriving DecidableEq, Repr

namespace MethodAccess

def flagPublic : AccessFlag := ⟨0x0001, "PUBLIC"⟩
def flagPrivate : AccessFlag := ⟨0x0002, "PRIVATE"⟩
def flagProtected : AccessFlag := ⟨0x0004, "PROTECTED"⟩
def flagStatic : AccessFlag := ⟨0x0008, "STATIC"⟩
def flagFinal : AccessFlag := ⟨0x0010, "FINAL"⟩
def flagNative : AccessFlag := ⟨0x0100, "NATIVE"⟩
def flagAbstract : AccessFlag := ⟨0x0400, "ABSTRACT"⟩
def flagSynthetic : AccessFlag := ⟨0x1000, "SYNTHETIC"⟩

/-- The flags that a method can have. -/
def known : List AccessFlag :=
  [flagPublic, flagPrivate, flagProtected, flagStatic, flagFinal, ⟨0x0020, "SYNCHRONIZED"⟩,
   ⟨0x0040, "BRIDGE"⟩, ⟨0x0080, "VARARGS"⟩, flagNative, flagAbstract, ⟨0x0800, "STRICT"⟩,
   flagSynthetic]

/-- The names of the known flags that are set. -/
def names (a : MethodAccess) : List String :=
  (known.filter (·.isSet a.bits)).map (·.name)

/-- Whether the method belongs to the class and not to its instances. -/
def isStatic (a : MethodAccess) : Bool := flagStatic.isSet a.bits

/-- The modifiers as words: the widest visibility first, then what else the listing shows. -/
def words (a : MethodAccess) : List String :=
  let visibility :=
    [(flagPublic, "public"), (flagProtected, "protected"), (flagPrivate, "private")].find?
      (·.1.isSet a.bits)
  let others :=
    [(flagStatic, "static"), (flagFinal, "final"), (flagAbstract, "abstract"),
     (flagNative, "native"), (flagSynthetic, "synthetic")].filter (·.1.isSet a.bits)
  visibility.toList.map (·.2) ++ others.map (·.2)

end MethodAccess

end SdkConformance
