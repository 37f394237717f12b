import SdkConformance.Proofs.ClassFile.BufferDescriptors
import SdkConformance.Proofs.ClassFile.LayoutReading

/-!
# Class files in a bare buffer

The parser of class files reads a table after the other by numbers that stand in the data. On a bare
buffer none of its sums, products, slices and indices lacks a result, whatever these numbers are,
and none of the branches that are there for what cannot happen is taken.

* `length_encode_lt_of_read`: a text of a constant pool is no longer than addresses can count;
* `BufferReader.readSlots`, `readMethod`, `readClass`: the parser with the operations of a bare
  buffer; `follows_readSlots`, `follows_readMethod` and `follows_readClass` for its parts;
* `sound_parseBuffer_never_defended`: class files, method descriptors and field descriptors.
-/

namespace SdkConformance

/-! ## 1. How long a text of a pool is -/

theorem ModifiedUtf8.length_le_of_spells {bs : Bytes} {us : List UInt16} (h : Spells bs us) :
    us.length ≤ bs.length := by
  induction h with
  | nil => exact Nat.le_refl 0
  | one _ _ ih =>
    simp only [List.length_cons]
    omega
  | two _ _ _ ih =>
    simp only [List.length_cons]
    omega
  | three _ _ _ _ ih =>
    simp only [List.length_cons]
    omega

theorem Utf16.length_le_length_encode (cs : List Char) : cs.length ≤ (encode cs).length := by
  induction cs with
  | nil => exact Nat.le_refl 0
  | cons c cs ih =>
    have hpos : 0 < (ofChar c).length := by
      unfold ofChar
      split <;> exact Nat.succ_pos _
    rw [encode_cons, List.length_append, List.length_cons]
    omega

theorem Utf8.length_encode_le (s : String) : (encode s).length ≤ 4 * s.toList.length := by
  rw [encode]
  induction s.toList with
  | nil => exact Nat.le_refl 0
  | cons c cs ih =>
    have hle := c.utf8Size_le_four
    rw [List.flatMap_cons, List.length_append, String.length_utf8EncodeChar, List.length_cons]
    omega

namespace ConstantPool

/-- A text of a pool comes from at most 65535 octets, so addresses can count its own octets. -/
theorem length_encode_lt_of_read {pool : ConstantPool} {index : UInt16} {s : String}
    (h : ∃ c d, read.outcome c = .ok (pool, d)) (hs : pool.utf8 index = .ok s) :
    (Utf8.encode s).length < UInt64.size := by
  obtain ⟨c, d, h⟩ := h
  have hread : read c = .ok pool d := by
    rw [ByteReader.outcome] at h
    cases hrun : read c with
    | ok a e =>
      rw [hrun] at h
      cases h
      rfl
    | error e c' =>
      rw [hrun] at h
      cases h
  obtain ⟨_, ⟨p, hslots, -⟩, -⟩ := (accepts_read c pool d).mp hread
  have hmem : Constant.utf8 s ∈ p.slots := by
    rw [← hslots]
    exact List.mem_of_getElem? (utf8_eq_ok_iff.mp hs)
  rw [PoolLayout.slots, List.mem_cons, List.mem_flatMap] at hmem
  rcases hmem with hmem | ⟨e, -, hmem⟩
  · cases hmem
  cases e with
  | text octets t hlength hspells =>
    cases List.mem_singleton.mp hmem
    have hunits := ModifiedUtf8.length_le_of_spells hspells
    have hchars := Utf16.length_le_length_encode s.toList
    have hle := Utf8.length_encode_le s
    have hsize : UInt64.size = 18446744073709551616 := rfl
    omega
  | classRef nameIndex => cases List.mem_singleton.mp hmem
  | wide kind octets hlength => simp [PoolEntry.slots] at hmem
  | plain kind octets hlength => cases List.mem_singleton.mp hmem

end ConstantPool

/-! ## 2. The parser -/

namespace BufferReader

open ClassFile

/-- Answers what was found in the pool, or fails with what is wrong with it. -/
def resolved {α : Type} : Except Malformation α → BufferReader Error α
  | .ok a => pure a
  | .error m => report (.malformed m)

/-- Reads constants while there are less slots than counted. -/
def readSlots (count : Nat) (slots : Array Constant) : BufferReader Error (Array Constant) :=
  if slots.size < count then do
    let tag ← u8
    match Payload.ofTag? tag with
    | none => report (.malformed (.constantTag tag slots.size))
    | some .text => do
      let length ← u16
      let text ← modifiedUtf8 length.toNat
      readSlots count (slots.push (.utf8 text))
    | some .classRef => do
      let nameIndex ← u16
      readSlots count (slots.push (.classRef nameIndex))
    | some (.opaqueOctets n) => do
      advance n
      readSlots count (slots.push (.other tag))
    | some .wide => do
      let next ← must (Address.add? slots.size 1)
      if count ≤ next then report (.malformed (.wideConstant slots.size count))
      else do
        advance 8
        readSlots count ((slots.push (.other tag)).push .unusable)
  else pure slots
termination_by count - slots.size
decreasing_by all_goals simp only [Array.size_push]; omega

/-- The pool at the position. -/
def readPool : BufferReader Error ConstantPool := do
  let count ← u16
  if count = 0 then report (.malformed .emptyPool)
  else return ⟨← readSlots count.toNat #[.unusable]⟩

/-- Passes so many attributes. -/
def skipAttributes : (count : Nat) → BufferReader Error Unit
  | 0 => pure ()
  | count + 1 => do
    let _ ← u16
    let length ← u32
    advance length.toNat
    skipAttributes count

def skipAttributeTable : BufferReader Error Unit := do
  let count ← u16
  skipAttributes count.toNat

/-- Passes so many fields. -/
def skipFields : (count : Nat) → BufferReader Error Unit
  | 0 => pure ()
  | count + 1 => do
    advance 6
    skipAttributeTable
    skipFields count

/-- One entry of the table of methods. Its descriptor is parsed in a buffer of its own. -/
def readMethod (pool : ConstantPool) (className : String) : BufferReader Error MethodEntry := do
  let access ← u16
  let nameIndex ← u16
  let name ← resolved (pool.utf8 nameIndex)
  let descriptorIndex ← u16
  let descriptor ← resolved (pool.utf8 descriptorIndex)
  skipAttributeTable
  match MethodDescriptor.parseBuffer descriptor with
  | .ok types => return ⟨name, descriptor, ⟨access⟩, types⟩
  | .error halt =>
    throw (halt.map fun fault => .malformed (.methodDescriptor descriptor className name fault))

/-- So many entries of the table of methods, after those read before, in reverse. -/
def readMethods (pool : ConstantPool) (className : String) :
    (count : Nat) → (done : List MethodEntry) → BufferReader Error (List MethodEntry)
  | 0, done => pure done.reverse
  | count + 1, done => do
    let m ← readMethod pool className
    readMethods pool className count (m :: done)

/-- Interfaces, fields and methods. -/
def readTables (pool : ConstantPool) (className : String) :
    BufferReader Error (List MethodEntry) := do
  let interfaceCount ← u16
  let length ← must (Address.mul? interfaceCount.toNat 2)
  advance length
  let fieldCount ← u16
  skipFields fieldCount.toNat
  let methodCount ← u16
  readMethods pool className methodCount.toNat []

/-- The dotted name of the parent. -/
def readSuper (pool : ConstantPool) (index : UInt16) : BufferReader Error (Option String) :=
  if index = 0 then pure none
  else resolved ((pool.className index).map fun n => some (ClassName.dotted n))

/-- What follows the constant pool. -/
def readBody (minorVersion majorVersion : UInt16) (pool : ConstantPool) :
    BufferReader Error ClassFile := do
  let access ← u16
  let thisIndex ← u16
  let name ← resolved ((pool.className thisIndex).map ClassName.dotted)
  let superIndex ← u16
  let superName ← readSuper pool superIndex
  let methods ← readTables pool name
  return ⟨minorVersion, majorVersion, ⟨access⟩, name, superName, methods⟩

/-- The class at the position. -/
def readClass : BufferReader Error ClassFile := do
  let start ← u32
  if start = magic then do
    let minorVersion ← u16
    let majorVersion ← u16
    let pool ← readPool
    readBody minorVersion majorVersion pool
  else report (.malformed (.magic start))

end BufferReader

/-- The class that the octets start with, by a run on a bare buffer. -/
def ClassFile.parseBuffer (data : Bytes) : Except (Halt Error) ClassFile :=
  (BufferReader.readClass ⟨data, 0⟩).map Prod.fst

/-! ## 3. Its parts -/

namespace BufferReader

section Found

variable {α : Type} (pool : ConstantPool) (index : UInt16)

theorem follows_resolved {found : Except Malformation α}
    (h : ∀ m, found = .error m → ¬ ReadFailure.Defended (Error.malformed m)) :
    Follows (resolved found) (ClassFile.resolved found) := by
  cases found with
  | ok a => exact follows_pure a
  | error m => exact follows_report (h m rfl)

theorem not_defended_of_utf8 {m : Malformation} (h : pool.utf8 index = .error m) :
    ¬ ReadFailure.Defended (Error.malformed m) := by
  unfold ConstantPool.utf8 at h
  split at h
  all_goals cases h
  all_goals exact id

theorem not_defended_of_className {m : Malformation} (h : pool.className index = .error m) :
    ¬ ReadFailure.Defended (Error.malformed m) := by
  unfold ConstantPool.className at h
  split at h
  case h_1 nameIndex _ => exact not_defended_of_utf8 pool nameIndex h
  all_goals cases h
  all_goals exact id

theorem follows_utf8 :
    Follows (resolved (pool.utf8 index)) (ClassFile.resolved (pool.utf8 index)) :=
  follows_resolved fun _ => not_defended_of_utf8 pool index

theorem follows_className (f : String → α) :
    Follows (resolved ((pool.className index).map f))
      (ClassFile.resolved ((pool.className index).map f)) := by
  refine follows_resolved fun m h => ?_
  cases hname : pool.className index with
  | ok n =>
    rw [hname] at h
    cases h
  | error m' =>
    rw [hname] at h
    cases h
    exact not_defended_of_className pool index hname

theorem utf8_eq_of_outcome {s : String}
    (h : ∃ c d, (ClassFile.resolved (pool.utf8 index)).outcome c = .ok (s, d)) :
    pool.utf8 index = .ok s := by
  obtain ⟨c, d, h⟩ := h
  cases htext : pool.utf8 index with
  | ok t =>
    rw [htext] at h
    cases h
    rfl
  | error m =>
    rw [htext] at h
    cases h

end Found

/-- **Slots are read as behind a cursor.** Two slots that are still missing are counted as they are
    by the sum that tells whether a wide constant fits. -/
theorem follows_readSlots {count missing : Nat} {slots : Array Constant} (hcount : count < 0x10000)
    (hmissing : slots.size + missing = count) :
    Follows (readSlots count slots) (ConstantPool.readSlots count missing slots) := by
  -- an entry that takes two slots leaves two less to be filled
  induction missing using Nat.strongRecOn generalizing slots with
  | ind missing ih =>
    cases missing with
    | zero =>
      rw [readSlots, if_neg (by omega), ConstantPool.readSlots]
      exact follows_pure slots
    | succ missing =>
      have hrest : ∀ constant, Follows (readSlots count (slots.push constant))
          (ConstantPool.readSlots count missing (slots.push constant)) := fun constant =>
        ih missing (Nat.lt_succ_self _) (by rw [Array.size_push]; omega)
      rw [readSlots, if_pos (by omega), ConstantPool.readSlots]
      refine follows_u8.bind fun tag _ => ?_
      cases Payload.ofTag? tag with
      | none => exact follows_report id
      | some form =>
        cases form with
        | text =>
          exact follows_u16.bind fun length _ => (follows_modifiedUtf8 length).bind fun text _ =>
            hrest _
        | classRef => exact follows_u16.bind fun nameIndex _ => hrest _
        | opaqueOctets n => exact (follows_advance n).bind fun _ _ => hrest _
        | wide =>
          have hsize : UInt64.size = 18446744073709551616 := rfl
          have hnext : Address.add? slots.size 1 = some (slots.size + 1) :=
            Address.add?_of_lt (by omega)
          simp only [hnext, must, pure_bind]
          cases missing with
          | zero =>
            rw [if_pos (by omega)]
            exact follows_report id
          | succ missing =>
            rw [if_neg (by omega)]
            exact (follows_advance 8).bind fun _ _ =>
              ih missing (by omega) (by rw [Array.size_push, Array.size_push]; omega)

theorem follows_readPool : Follows readPool ConstantPool.read := by
  rw [readPool, ConstantPool.read]
  refine follows_u16.bind fun count _ => ?_
  cases hcount : count.toNat with
  | zero =>
    have hzero : count = 0 := UInt16.toNat_inj.mp hcount
    rw [if_pos hzero]
    exact follows_report id
  | succ missing =>
    have hne : count ≠ 0 := by
      rintro rfl
      cases hcount
    have hlt := count.toNat_lt
    rw [if_neg hne]
    exact (follows_readSlots (by omega) (by simp; omega)).map _

/-- The two octets of an unread number can as well be passed. -/
theorem skip_two_eq : ByteReader.skip 2 = ByteReader.u16 >>= fun _ => pure () := by
  rw [ByteReader.skip_eq_octets, ByteReader.u16, ByteReader.unsigned_eq_octets]
  simp only [bind_assoc, pure_bind]

theorem follows_skipAttributes (n : Nat) :
    Follows (skipAttributes n) (ClassFile.skipAttributes n) := by
  induction n with
  | zero => exact follows_pure ()
  | succ n ih =>
    rw [ClassFile.skipAttributes, skip_two_eq, bind_assoc]
    simp only [pure_bind]
    exact follows_u16.bind fun _ _ => follows_u32.bind fun length _ =>
      (follows_advance _).bind fun _ _ => ih

theorem follows_skipAttributeTable : Follows skipAttributeTable ClassFile.skipAttributeTable :=
  follows_u16.bind fun _ _ => follows_skipAttributes _

theorem follows_skipFields (n : Nat) : Follows (skipFields n) (ClassFile.skipFields n) := by
  induction n with
  | zero => exact follows_pure ()
  | succ n ih =>
    exact (follows_advance 6).bind fun _ _ => follows_skipAttributeTable.bind fun _ _ => ih

section Pools

variable {pool : ConstantPool} (hpool : ∃ c d, ConstantPool.read.outcome c = .ok (pool, d))

include hpool

/-- **A method is read as behind a cursor**, with a descriptor that is parsed as any other text. -/
theorem follows_readMethod (className : String) :
    Follows (readMethod pool className) (ClassFile.readMethod pool className) := by
  refine follows_u16.bind fun access _ => follows_u16.bind fun nameIndex _ =>
    (follows_utf8 pool nameIndex).bind fun name _ => follows_u16.bind fun descriptorIndex _ =>
    (follows_utf8 pool descriptorIndex).bind fun descriptor hdescriptor =>
    follows_skipAttributeTable.bind fun _ _ => ?_
  have hlength := ConstantPool.length_encode_lt_of_read hpool
    (utf8_eq_of_outcome pool descriptorIndex hdescriptor)
  have hsound := MethodDescriptor.sound_parseBuffer descriptor
  rw [hsound.same hlength]
  cases hparse : MethodDescriptor.parse descriptor with
  | ok types => exact follows_pure _
  | error fault => exact follows_report (hsound.not_defended fault hparse)

theorem follows_readMethods (className : String) (n : Nat) (done : List MethodEntry) :
    Follows (readMethods pool className n done) (ClassFile.readMethods pool className n done) := by
  induction n generalizing done with
  | zero => exact follows_pure _
  | succ n ih => exact (follows_readMethod hpool className).bind fun m _ => ih (m :: done)

theorem follows_readTables (className : String) :
    Follows (readTables pool className) (ClassFile.readTables pool className) := by
  refine follows_u16.bind fun interfaceCount _ => ?_
  have hlt := interfaceCount.toNat_lt
  have hsize : UInt64.size = 18446744073709551616 := rfl
  have hlength : Address.mul? interfaceCount.toNat 2 = some (interfaceCount.toNat * 2) :=
    Address.mul?_of_lt (by omega)
  simp only [hlength, must, pure_bind]
  exact (follows_advance _).bind fun _ _ => follows_u16.bind fun _ _ =>
    (follows_skipFields _).bind fun _ _ => follows_u16.bind fun _ _ =>
    follows_readMethods hpool className _ []

theorem follows_readBody (minorVersion majorVersion : UInt16) :
    Follows (readBody minorVersion majorVersion pool)
      (ClassFile.readBody minorVersion majorVersion pool) := by
  have hsuper : ∀ index, Follows (readSuper pool index) (ClassFile.readSuper pool index) := by
    intro index
    unfold readSuper ClassFile.readSuper
    split
    · exact follows_pure none
    · exact follows_className pool index _
  exact follows_u16.bind fun _ _ => follows_u16.bind fun thisIndex _ =>
    (follows_className pool thisIndex _).bind fun name _ => follows_u16.bind fun superIndex _ =>
    (hsuper superIndex).bind fun _ _ => (follows_readTables hpool name).map _

end Pools

/-- **A class is read as behind a cursor.** -/
theorem follows_readClass : Follows readClass ClassFile.read := by
  rw [ClassFile.read_eq]
  refine follows_u32.bind fun start _ => ?_
  split
  · exact follows_u16.bind fun minorVersion _ => follows_u16.bind fun majorVersion _ =>
      follows_readPool.bind fun pool hpool => follows_readBody hpool minorVersion majorVersion
  · exact follows_report id

end BufferReader

/-! ## 4. Whole runs -/

theorem ClassFile.sound_parseBuffer (data : Bytes) :
    Sound data.length (ClassFile.parseBuffer data) (ClassFile.parse data) := by
  have hrun := (BufferReader.follows_readClass (.ofBytes data)).sound
  rw [ClassFile.parse, ByteReader.answer_eq_map_outcome]
  exact hrun

/-- **No operation of the parsers lacks a result, and no branch that defends is taken.** On any
    octets and on any text, a run on a bare buffer comes to no panic: every slice and index is
    inside its data, and no sum, product or difference leaves its range. It takes no branch that is
    there for what cannot happen, and answers as the parser does, as soon as addresses can count the
    octets. The octets of a class name are always text, the dimensions of an array always fit an
    octet, and the shorter way for ASCII always finds a text. -/
theorem sound_parseBuffer_never_defended (data : Bytes) (s : String) :
    (Sound data.length (ClassFile.parseBuffer data) (ClassFile.parse data) ∧
      Sound (Utf8.encode s).length (MethodDescriptor.parseBuffer s) (MethodDescriptor.parse s) ∧
      Sound (Utf8.encode s).length (ValueType.parseBuffer s) (ValueType.parse s)) ∧
    (∀ index, MethodDescriptor.parse s ≠ .error (.invalidName index) ∧
      ValueType.parse s ≠ .error (.invalidName index)) ∧
    (∀ n, MethodDescriptor.parse s ≠ .error (.dimensions n) ∧
      ValueType.parse s ≠ .error (.dimensions n)) ∧
    ClassFile.parse data ≠ .error (.malformed (.undecodable .notAscii)) := by
  have hclass := ClassFile.sound_parseBuffer data
  have hmethod := MethodDescriptor.sound_parseBuffer s
  have hfield := ValueType.sound_parseBuffer s
  refine ⟨⟨hclass, hmethod, hfield⟩, fun index => ⟨?_, ?_⟩, fun n => ⟨?_, ?_⟩, ?_⟩
  · exact fun h => hmethod.not_defended _ h trivial
  · exact fun h => hfield.not_defended _ h trivial
  · exact fun h => hmethod.not_defended _ h trivial
  · exact fun h => hfield.not_defended _ h trivial
  · exact fun h => hclass.not_defended _ h trivial

/-- The class `a/B` with a method `m` of an array of a class `é`. -/
def accentedClass : Bytes :=
  [0xCA, 0xFE, 0xBA, 0xBE, 0x00, 0x00, 0x00, 0x34, 0x00, 0x05,
   0x01, 0x00, 0x03, 0x61, 0x2F, 0x42, 0x07, 0x00, 0x01, 0x01, 0x00, 0x01, 0x6D,
   0x01, 0x00, 0x08, 0x28, 0x5B, 0x4C, 0xC3, 0xA9, 0x3B, 0x29, 0x56,
   0x00, 0x21, 0x00, 0x02, 0x00, 0x00, 0x00, 0x00, 0x00, 0x00,
   0x00, 0x01, 0x00, 0x01, 0x00, 0x03, 0x00, 0x04, 0x00, 0x00]

/-- A run decodes a name of two octets, and reports an empty name and the first of all octets. -/
theorem sound_parseBuffer_accentedClass :
    ClassFile.parseBuffer accentedClass = .ok ⟨0, 52, ⟨0x21⟩, "a.B", none,
      [⟨"m", "([Lé;)V", ⟨1⟩, ⟨[.array (.object "é") 1], .void⟩⟩]⟩ ∧
    MethodDescriptor.parseBuffer "(L;)V" = .error (.reported (.emptyName 2)) ∧
    ValueType.parseBuffer "Q" = .error (.reported (.invalidCharacter 0x51 0)) := by
  have hclass : ClassFile.parse accentedClass = .ok ⟨0, 52, ⟨0x21⟩, "a.B", none,
      [⟨"m", "([Lé;)V", ⟨1⟩, ⟨[.array (.object "é") 1], .void⟩⟩]⟩ := by decide +kernel
  have hmethod : MethodDescriptor.parse "(L;)V" = .error (.emptyName 2) := by decide +kernel
  have hfield : ValueType.parse "Q" = .error (.invalidCharacter 0x51 0) := by decide +kernel
  obtain ⟨⟨hrun, hempty, -⟩, -⟩ := sound_parseBuffer_never_defended accentedClass "(L;)V"
  obtain ⟨⟨-, -, hletter⟩, -⟩ := sound_parseBuffer_never_defended [] "Q"
  refine ⟨?_, ?_, ?_⟩
  · rw [hrun.same (by decide), hclass]
    rfl
  · rw [hempty.same (by decide), hmethod]
    rfl
  · rw [hletter.same (by decide), hfield]
    rfl

end SdkConformance
