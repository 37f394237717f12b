import SdkConformance.Error
import SdkConformance.Text.Utf8
import SdkConformance.Zip.Crc32
import SdkConformance.Zip.Entry

/-!
# Extra fields

The header of an entry may go on in fields, each with a kind, a length and as many octets. Fields
of some kinds amend the entry or have rules of their own; the others are skipped. A field that is
cut off ends the reading, and the entry stays as it is by then.

* `ZipEntry.amended?`: the entry after its extra fields, if they are all well-formed.
-/

namespace SdkConformance.ExtraField

/-! ## 1. Reading -/

/-- An entry while its fields are read, and the octets to be read. -/
structure Reading where
  entry : ZipEntry
  rest : Bytes

/-- A step of reading. Its effect on the entry stays even if the step fails. -/
abbrev Reader := EStateM ZipFault Reading

/-- The next octets. -/
def octets (n : Nat) : Reader Bytes := do
  let r ← get
  if holds n r.rest then
    set { r with rest := r.rest.drop n }
    return r.rest.take n
  else throw .cutOff

/-- The number in the next octets. -/
def number (width : Nat) : Reader Nat := return Bytes.littleEndian (← octets width)

/-- Amends the entry. -/
def amend (f : ZipEntry → ZipEntry) : Reader Unit :=
  modify fun r => { r with entry := f r.entry }

/-- Goes on only under a condition. -/
def demand (condition : Bool) : Reader Unit := if condition then return else throw .invalid

/-! ## 2. Large numbers -/

/-- A size or an offset in eight octets, which is there if the header leaves it open or the field
    has room for all three numbers. Answers how many octets it took. -/
def largeNumber (length : Nat) (given : ZipEntry → Nat) (put : Nat → ZipEntry → ZipEntry) :
    Reader Nat := do
  if 24 ≤ length || given (← get).entry == ZipEntry.elsewhere then
    let n ← number 8
    amend (put n)
    return 8
  else return 0

/-- The size, the compressed size and the offset of the local header. -/
def largeNumbers (length : Nat) : Reader Unit := do
  let a ← largeNumber length (·.size) fun n e => { e with size := n }
  let b ← largeNumber length (·.compressedSize) fun n e => { e with compressedSize := n }
  let c ← largeNumber length (·.headerStart) fun n e => { e with headerStart := n }
  demand (a + b + c ≤ length)
  discard (octets (length - (a + b + c)))

/-! ## 3. Times -/

/-- Three times in a fixed form. -/
def fileTimes (length : Nat) : Reader Unit := do
  demand (length == 32)
  discard (octets 4)
  demand ((← number 2) == 1)
  demand ((← number 2) == 24)
  discard (octets 24)

/-- How many of the lowest eight bits are set. -/
def setBits (n : Nat) : Nat := ((List.range 8).filter fun i => n / Nat.pow 2 i % 2 == 1).length

/-- Up to three times, each announced by a bit; a field of five octets has the first one. -/
def unixTimes (length : Nat) : Reader Unit := do
  let flags ← number 1
  demand (length == 5 || length == 1 + 4 * setBits flags)
  demand (flags < 8)
  discard (octets (if length == 5 then 4 else 4 * setBits flags))

/-! ## 4. Encryption -/

/-- The way an entry is encrypted, with the compression method below it. -/
def aes (length : Nat) : Reader Unit := do
  demand (length == 7)
  let version ← number 2
  let vendor ← number 2
  let strength ← number 1
  let compression ← number 2
  demand (vendor == 0x4541)
  demand (version == 1 || version == 2)
  demand (1 ≤ strength && strength ≤ 3)
  amend fun e => { e with hasAes := true, compression }

/-! ## 5. Texts -/

/-- A text in UTF-8 that stands for another one, given by its checksum. -/
def substitute (length : Nat) (replaced : ZipEntry → Bytes) : Reader (Bytes × String) := do
  discard (octets 1)
  let crc ← number 4
  demand (5 ≤ length)
  let bs ← octets (length - 5)
  demand (Crc32.checksum (replaced (← get).entry) == UInt32.ofNat crc)
  match Utf8.decode? bs with
  | some s => return (bs, s)
  | none => throw .invalid

/-- The name of the entry. -/
def unicodeName (length : Nat) : Reader Unit := do
  let (rawName, name) ← substitute length (·.rawName)
  amend fun e => { e with rawName, name }

/-- The comment on the entry. -/
def unicodeComment (length : Nat) : Reader Unit := do
  let (_, comment) ← substitute length fun e => Utf8.encode e.comment
  amend fun e => { e with comment }

/-! ## 6. Fields -/

/-- A field. -/
def field : Reader Unit := do
  let kind ← number 2
  let length ← number 2
  if kind = 0x0001 then largeNumbers length
  else if kind = 0x000A then fileTimes length
  else if kind = 0x9901 then aes length
  else if kind = 0x5455 then unixTimes length
  else if kind = 0x6375 then unicodeComment length
  else if kind = 0x7075 then unicodeName length
  else discard (octets length)

/-- All fields. Each takes at least four octets, so `fuel` rounds suffice for as many octets. -/
def fields : (fuel : Nat) → Reader Unit
  | 0 => return
  | fuel + 1 => do
    if (← get).rest.isEmpty then return
    field
    fields fuel

end SdkConformance.ExtraField

namespace SdkConformance

/-- The entry after its extra fields, if they are well-formed. An entry whose method is AES must
    have the field that names the true one. -/
def ZipEntry.amended? (e : ZipEntry) (extra : Bytes) : Option ZipEntry :=
  let read :=
    match (ExtraField.fields extra.length).run ⟨e, extra⟩ with
    | .ok _ r | .error .cutOff r => some r.entry
    | .error _ _ => none
  read.filter fun e => e.hasAes || e.compression != ZipEntry.aesMethod

end SdkConformance
