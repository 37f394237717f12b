import SdkConformance.ClassFile.Basic
import SdkConformance.Proofs.ClassFile.Formats

/-!
# The layout of class files

A class file as a value: everything that is written in it up to the end of the table of methods, and
the octets that it is written as. Bounds that the notation imposes are part of the types.

* `PoolEntry`, `PoolLayout`: constants, and the slots that they fill;
* `Attribute`, `Member`: what fields and methods are made of;
* `ClassBody`: what follows the pool; `ClassLayout`: the whole file, with `ClassLayout.octets`;
* `ClassLayout.Shows`: what is kept of a layout when it is read.
-/

namespace SdkConformance

/-! ## 1. Tables -/

/-- Items of which the number is written in two octets. -/
structure Table (α : Type) where
  items : List α
  length_lt : items.length < 0x10000

/-- The number of items, then item after item. -/
def Table.octets {α : Type} (octetsOf : α → Bytes) (t : Table α) : Bytes :=
  Bytes.ofNatBigEndian 2 t.items.length ++ t.items.flatMap octetsOf

/-! ## 2. The constant pool -/

/-- The constants that take two slots. -/
inductive WideKind where
  | long
  | double

def WideKind.tag : WideKind → UInt8
  | .long => 5
  | .double => 6

/-- The constants of which nothing but the tag is kept. -/
inductive OpaqueKind where
  | integer
  | float
  | string
  | field
  | method
  | interfaceMethod
  | nameAndType
  | methodHandle
  | methodType
  | dynamic
  | invokeDynamic
  | module
  | package

namespace OpaqueKind

def tag : OpaqueKind → UInt8
  | integer => 3
  | float => 4
  | string => 8
  | field => 9
  | method => 10
  | interfaceMethod => 11
  | nameAndType => 12
  | methodHandle => 15
  | methodType => 16
  | dynamic => 17
  | invokeDynamic => 18
  | module => 19
  | package => 20

/-- How many octets follow the tag. -/
def size : OpaqueKind → Nat
  | string | methodType | module | package => 2
  | methodHandle => 3
  | integer | float | field | method | interfaceMethod | nameAndType | dynamic | invokeDynamic => 4

end OpaqueKind

/-- A constant as it is written. -/
inductive PoolEntry where
  | text (octets : Bytes) (s : String) (length_lt : octets.length < 0x10000)
      (spells : ModifiedUtf8.Spells octets (Utf16.encode s.toList))
  | classRef (nameIndex : UInt16)
  | wide (kind : WideKind) (octets : Bytes) (length_eq : octets.length = 8)
  | plain (kind : OpaqueKind) (octets : Bytes) (length_eq : octets.length = kind.size)

namespace PoolEntry

def tag : PoolEntry → UInt8
  | text .. => 1
  | classRef _ => 7
  | wide kind .. => kind.tag
  | plain kind .. => kind.tag

/-- What follows the tag. -/
def payload : PoolEntry → Bytes
  | text octets .. => Bytes.ofNatBigEndian 2 octets.length ++ octets
  | classRef nameIndex => Bytes.ofUInt16 nameIndex
  | wide _ octets _ => octets
  | plain _ octets _ => octets

def octets (e : PoolEntry) : Bytes := e.tag :: e.payload

/-- The slots that the constant fills. -/
def slots : PoolEntry → List Constant
  | text _ s .. => [.utf8 s]
  | classRef nameIndex => [.classRef nameIndex]
  | wide kind .. => [.other kind.tag, .unusable]
  | plain kind .. => [.other kind.tag]

end PoolEntry

/-- A constant pool. Slot zero counts, and two octets hold the number of slots. -/
structure PoolLayout where
  entries : List PoolEntry
  length_lt : (entries.flatMap PoolEntry.slots).length + 1 < 0x10000

namespace PoolLayout

/-- All slots, from slot zero on. -/
def slots (p : PoolLayout) : List Constant := .unusable :: p.entries.flatMap PoolEntry.slots

def octets (p : PoolLayout) : Bytes :=
  Bytes.ofNatBigEndian 2 p.slots.length ++ p.entries.flatMap PoolEntry.octets

end PoolLayout

/-- The slot holds the text. -/
def HoldsText (slots : List Constant) (index : UInt16) (s : String) : Prop :=
  slots[index.toNat]? = some (.utf8 s)

/-- The slot holds a class, and the slot that it refers to holds its name. -/
def HoldsClass (slots : List Constant) (index : UInt16) (name : String) : Prop :=
  ∃ nameIndex, slots[index.toNat]? = some (.classRef nameIndex) ∧ HoldsText slots nameIndex name

/-! ## 3. Fields and methods -/

/-- An attribute: a name, and contents of which the length is written in four octets. -/
structure Attribute where
  nameIndex : UInt16
  contents : Bytes
  length_lt : contents.length < 0x100000000

def Attribute.octets (a : Attribute) : Bytes :=
  Bytes.ofUInt16 a.nameIndex ++ Bytes.ofNatBigEndian 4 a.contents.length ++ a.contents

/-- A field or a method. -/
structure Member where
  access : UInt16
  nameIndex : UInt16
  descriptorIndex : UInt16
  attributes : Table Attribute

namespace Member

def octets (m : Member) : Bytes :=
  Bytes.ofUInt16 m.access ++ Bytes.ofUInt16 m.nameIndex ++ Bytes.ofUInt16 m.descriptorIndex ++
    m.attributes.octets Attribute.octets

/-- What is kept of a method: its flags as they are, the name and the descriptor that its indices
    stand for, and the types of the descriptor. -/
structure Shows (slots : List Constant) (m : Member) (e : MethodEntry) : Prop where
  access : e.access = ⟨m.access⟩
  name : HoldsText slots m.nameIndex e.name
  descriptor : HoldsText slots m.descriptorIndex e.descriptor
  types : MethodDescriptor.parse e.descriptor = .ok e.types

end Member

/-! ## 4. The whole file -/

/-- What follows the constant pool, up to the end of the table of methods. -/
structure ClassBody where
  access : UInt16
  thisIndex : UInt16
  superIndex : UInt16
  interfaces : Table UInt16
  fields : Table Member
  methods : Table Member

namespace ClassBody

def octets (b : ClassBody) : Bytes :=
  Bytes.ofUInt16 b.access ++ Bytes.ofUInt16 b.thisIndex ++ Bytes.ofUInt16 b.superIndex ++
    b.interfaces.octets Bytes.ofUInt16 ++ b.fields.octets Member.octets ++
    b.methods.octets Member.octets

/-- What is kept of it: the flags as they are, the dotted names of the class and of the parent,
    which only index zero has none of, and the methods in their order. -/
structure Shows (slots : List Constant) (b : ClassBody) (c : ClassFile) : Prop where
  access : c.access = ⟨b.access⟩
  name : ∃ n, HoldsClass slots b.thisIndex n ∧ c.name = ClassName.dotted n
  noSuper : b.superIndex = 0 → c.superName = none
  superName : b.superIndex ≠ 0 →
    ∃ n, HoldsClass slots b.superIndex n ∧ c.superName = some (ClassName.dotted n)
  methods : List.Forall₂ (Member.Shows slots) b.methods.items c.methods

end ClassBody

/-- A class file up to the end of its table of methods. -/
structure ClassLayout where
  minorVersion : UInt16
  majorVersion : UInt16
  pool : PoolLayout
  body : ClassBody

namespace ClassLayout

/-- What follows the number that every class file starts with. -/
def versioned (l : ClassLayout) : Bytes :=
  Bytes.ofUInt16 l.minorVersion ++ Bytes.ofUInt16 l.majorVersion ++ l.pool.octets ++ l.body.octets

def octets (l : ClassLayout) : Bytes := [0xCA, 0xFE, 0xBA, 0xBE] ++ l.versioned

/-- What is kept of a class file. -/
structure Shows (l : ClassLayout) (c : ClassFile) : Prop where
  minorVersion : c.minorVersion = l.minorVersion
  majorVersion : c.majorVersion = l.majorVersion
  body : l.body.Shows l.pool.slots c

end ClassLayout

end SdkConformance
