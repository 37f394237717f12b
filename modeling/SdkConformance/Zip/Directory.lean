import SdkConformance.Text.CodePage437
import SdkConformance.Zip.EndRecord
import SdkConformance.Zip.ExtraField

/-!
# The directory of a zip container

The directory has a header for each entry.

* `ZipDirectory.find`: the entries in the directory of the last end record that leads to one.
-/

namespace SdkConformance

/-! ## 1. Headers -/

/-- The text of a name: UTF-8 if the header says so, else code page 437. -/
def ZipEntry.textOf (isUtf8 : Bool) (bs : Bytes) : String :=
  if isUtf8 then Utf8.decodeLossy bs else CodePage437.decode bs

/-- The entry of the header at the start of the octets, and the octets behind the header. -/
def ZipEntry.read? (bs : Bytes) : Option (ZipEntry × Bytes) :=
  let n := Bytes.numberAt bs
  let flags := n 8 2
  let isUtf8 := flags / 0x800 % 2 == 1
  let extraStart := 46 + n 28 2
  let commentStart := extraStart + n 30 2
  let length := commentStart + n 32 2
  if Bytes.startsWith ZipSignature.header bs && holds length bs then
    let part (first last : Nat) : Bytes := (bs.drop first).take (last - first)
    let rawName := part 46 extraStart
    let entry : ZipEntry :=
      { name := textOf isUtf8 rawName
        rawName
        comment := textOf isUtf8 (part commentStart length)
        isEncrypted := flags % 2 == 1
        hasAes := false
        compression := n 10 2
        crc := UInt32.ofNat (n 16 4)
        compressedSize := n 20 4
        size := n 24 4
        headerStart := n 42 4 }
    (entry.amended? (part extraStart commentStart)).map (·, bs.drop length)
  else none

/-! ## 2. Directories -/

namespace ZipDirectory

/-- So many entries, after those read before, in reverse. The local headers must lie before the
    directory. -/
def readHeaders? (place : DirectoryPlace) : (count : Nat) → List ZipEntry → Bytes →
    Option (List ZipEntry)
  | 0, done, _ => some done.reverse
  | count + 1, done, bs =>
    match ZipEntry.read? bs with
    | none => none
    | some (e, rest) =>
      let headerStart := e.headerStart + place.shift
      if place.start ≤ headerStart then none
      else readHeaders? place count ({ e with headerStart } :: done) rest

/-- The entries of the directory at a place. -/
def entries? (place : DirectoryPlace) (data : Bytes) : Option (List ZipEntry) :=
  if place.isSound then readHeaders? place place.count [] (data.drop place.start) else none

/-- Tries the end records at the given offsets, last one first. What is wrong with a record that
    leads nowhere is remembered, unless a later one was good enough to look for its entries; that a
    record is not complete counts only if nothing else is wrong. -/
def findFrom (data : Bytes) : List Nat → Option ZipFault → Except ZipFault (List ZipEntry)
  | [], fault => .error (fault.getD .invalid)
  | offset :: earlier, fault =>
    match EndRecord.read (data.drop offset) with
    | .error first => findFrom data earlier (some (fault.getD first))
    | .ok e =>
      match e.place data offset with
      | .error last => findFrom data earlier (some last)
      | .ok place =>
        match entries? place data with
        | some entries => .ok entries
        | none => findFrom data earlier none

/-- The entries of the container in the order of its directory. -/
def find (data : Bytes) : Except ZipFault (List ZipEntry) :=
  findFrom data (Bytes.places ZipSignature.endRecord data) none

end ZipDirectory

end SdkConformance
