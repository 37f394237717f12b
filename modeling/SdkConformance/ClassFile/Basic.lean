import SdkConformance.ClassFile.AccessFlags
import SdkConformance.ClassFile.ConstantPool

/-!
# Class files

Of a class file the library keeps what signatures are compared by: versions, flags, the names of
the class and its parent, and the table of methods. Everything else is passed by its length, and
what follows the table of methods is not looked at.

* `ClassFile.parse`: the class that octets start with.
-/

namespace SdkConformance

/-! ## 1. What is kept -/

/-- An entry of the table of methods. -/
structure MethodEntry where
  name : String
  /-- The descriptor as it is written. -/
  descriptor : String
  access : MethodAccess
  /-- The types that the descriptor describes. -/
  types : MethodDescriptor
  deriving DecidableEq, Repr

/-- Whether the method is static. -/
def MethodEntry.isStatic (m : MethodEntry) : Bool := m.access.isStatic

/-- The canonical names of the parameter types. -/
def MethodEntry.paramNames (m : MethodEntry) : List String := m.types.params.map ValueType.name

/-- The canonical name of the return type. -/
def MethodEntry.returnName (m : MethodEntry) : String := m.types.result.name

/-- A class with its methods in the order of the file. Names are dotted. -/
structure ClassFile where
  minorVersion : UInt16
  majorVersion : UInt16
  access : ClassAccess
  name : String
  superName : Option String
  methods : List MethodEntry
  deriving DecidableEq, Repr

namespace ClassFile

/-! ## 2. Reading -/

/-- The number that every class file starts with. -/
def magic : UInt32 := 0xCAFEBABE

/-- Answers what was found in the pool, or fails with what is wrong with it. -/
def resolved {α : Type} : Except Malformation α → ByteReader α
  | .ok a => pure a
  | .error m => throw (.malformed m)

/-- Passes so many attributes: a name and a length before the octets of each. -/
def skipAttributes : (count : Nat) → ByteReader Unit
  | 0 => pure ()
  | count + 1 => do
    ByteReader.skip 2
    let length ← ByteReader.u32
    ByteReader.skip length.toNat
    skipAttributes count

/-- Passes the attributes of a field or a method. -/
def skipAttributeTable : ByteReader Unit := do
  let count ← ByteReader.u16
  skipAttributes count.toNat

/-- Passes so many fields: flags, name and type before the attributes of each. -/
def skipFields : (count : Nat) → ByteReader Unit
  | 0 => pure ()
  | count + 1 => do
    ByteReader.skip 6
    skipAttributeTable
    skipFields count

/-- One entry of the table of methods. -/
def readMethod (pool : ConstantPool) (className : String) : ByteReader MethodEntry := do
  let access ← ByteReader.u16
  let nameIndex ← ByteReader.u16
  let name ← resolved (pool.utf8 nameIndex)
  let descriptorIndex ← ByteReader.u16
  let descriptor ← resolved (pool.utf8 descriptorIndex)
  skipAttributeTable
  match MethodDescriptor.parse descriptor with
  | .ok types => return ⟨name, descriptor, ⟨access⟩, types⟩
  | .error fault => throw (.malformed (.methodDescriptor descriptor className name fault))

/-- So many entries of the table of methods, after those read before, in reverse. -/
def readMethods (pool : ConstantPool) (className : String) :
    (count : Nat) → (done : List MethodEntry) → ByteReader (List MethodEntry)
  | 0, done => pure done.reverse
  | count + 1, done => do
    let m ← readMethod pool className
    readMethods pool className count (m :: done)

/-- The class behind a cursor, up to the end of its table of methods. -/
def read : ByteReader ClassFile := do
  let start ← ByteReader.u32
  if start != magic then
    throw (.malformed (.magic start))
  let minorVersion ← ByteReader.u16
  let majorVersion ← ByteReader.u16
  let pool ← ConstantPool.read
  let access ← ByteReader.u16
  let thisIndex ← ByteReader.u16
  let name ← resolved ((pool.className thisIndex).map ClassName.dotted)
  let superIndex ← ByteReader.u16
  let superName ←
    if superIndex = 0 then pure none
    else resolved ((pool.className superIndex).map fun n => some (ClassName.dotted n))
  let interfaceCount ← ByteReader.u16
  ByteReader.skip (interfaceCount.toNat * 2)
  let fieldCount ← ByteReader.u16
  skipFields fieldCount.toNat
  let methodCount ← ByteReader.u16
  let methods ← readMethods pool name methodCount.toNat []
  return ⟨minorVersion, majorVersion, ⟨access⟩, name, superName, methods⟩

/-- The class that the octets start with. -/
def parse (data : Bytes) : Except Error ClassFile := read.answer (.ofBytes data)

end ClassFile

end SdkConformance
