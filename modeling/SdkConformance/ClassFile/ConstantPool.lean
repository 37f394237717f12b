import SdkConformance.ClassFile.ByteReader

/-!
# The constant pool

A pool is written as the number of its slots, slot zero included, and then one constant after the
other: a tag and a payload whose size the tag tells. Constants of eight octets take two slots.

* `ConstantPool.read`: the pool behind a cursor;
* `utf8`, `className`: the text of a slot, and the text that a class slot refers to.
-/

namespace SdkConformance

/-- The slots of a pool, from slot zero on. -/
structure ConstantPool where
  slots : Array Constant
  deriving DecidableEq, Repr

/-- How the payload of a constant is laid out. -/
inductive Payload where
  /-- A length in two octets and so many octets of text. -/
  | text
  /-- The slot of a class name. -/
  | classRef
  /-- Eight octets, for which the constant takes two slots. -/
  | wide
  /-- So many octets of no interest. -/
  | opaqueOctets (n : Nat)
  deriving DecidableEq, Repr

/-- The payload that follows a tag. -/
def Payload.ofTag? (tag : UInt8) : Option Payload :=
  match tag.toNat with
  | 1 => some .text
  | 7 => some .classRef
  | 5 | 6 => some .wide
  | 8 | 16 | 19 | 20 => some (.opaqueOctets 2)
  | 15 => some (.opaqueOctets 3)
  | 3 | 4 | 9 | 10 | 11 | 12 | 17 | 18 => some (.opaqueOctets 4)
  | _ => none

namespace ConstantPool

/-! ## 1. Reading -/

/-- Reads constants until `missing` more slots are filled. -/
def readSlots (count : Nat) : (missing : Nat) → Array Constant → ByteReader (Array Constant)
  | 0, slots => pure slots
  | missing + 1, slots => do
    let tag ← ByteReader.u8
    match Payload.ofTag? tag with
    | none => throw (.malformed (.constantTag tag slots.size))
    | some .text =>
      let length ← ByteReader.u16
      let text ← ByteReader.modifiedUtf8 length.toNat
      readSlots count missing (slots.push (.utf8 text))
    | some .classRef =>
      let nameIndex ← ByteReader.u16
      readSlots count missing (slots.push (.classRef nameIndex))
    | some (.opaqueOctets n) =>
      ByteReader.skip n
      readSlots count missing (slots.push (.other tag))
    | some .wide =>
      match missing with
      | 0 => throw (.malformed (.wideConstant slots.size count))
      | missing + 1 =>
        ByteReader.skip 8
        readSlots count missing ((slots.push (.other tag)).push .unusable)

/-- The pool behind a cursor. -/
def read : ByteReader ConstantPool := do
  let count ← ByteReader.u16
  match count.toNat with
  | 0 => throw (.malformed .emptyPool)
  | missing + 1 => return ⟨← readSlots count.toNat missing #[.unusable]⟩

/-! ## 2. Slots -/

/-- The number of slots, slot zero included. -/
def size (pool : ConstantPool) : Nat := pool.slots.size

/-- Whether there is no slot but slot zero. -/
def isEmpty (pool : ConstantPool) : Bool := pool.size ≤ 1

/-- What the slot holds, if there is one of this number. -/
def get? (pool : ConstantPool) (index : UInt16) : Option Constant := pool.slots[index.toNat]?

/-- The text in the slot. -/
def utf8 (pool : ConstantPool) (index : UInt16) : Except Malformation String :=
  match pool.get? index with
  | some (.utf8 text) => .ok text
  | some found => .error (.notText index found)
  | none => .error (.noConstant index)

/-- The name of the class in the slot, as it is written in the pool. -/
def className (pool : ConstantPool) (index : UInt16) : Except Malformation String :=
  match pool.get? index with
  | some (.classRef nameIndex) => pool.utf8 nameIndex
  | some found => .error (.notClass index found)
  | none => .error (.noConstant index)

end ConstantPool

end SdkConformance
