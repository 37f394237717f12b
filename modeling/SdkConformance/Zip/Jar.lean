import Std.Data.HashMap
import SdkConformance.Sdk.Archive
import SdkConformance.Zip.Crc32
import SdkConformance.Zip.Directory
import SdkConformance.Zip.Inflate

/-!
# Jars

A jar is a zip container of which entries are read by name. The directory records the size and the
checksum of every entry, and octets that do not agree with both are not handed out.

* `Delivery`: what the decompression of an entry hands out before it ends or fails;
* `ZipEntry.accept`: the octets of an entry, if what is delivered agrees with the directory;
* `Jar.ofBytes`, `Jar.read`: opening a jar and reading an entry.
-/

namespace SdkConformance

/-! ## 1. What an entry delivers -/

/-- Octets in order, and whether an end follows them rather than a failure. -/
structure Delivery where
  octets : Bytes
  isIntact : Bool
  deriving DecidableEq, Repr

/-- What a deflate stream delivers, of which more than `size` octets are not needed. -/
def Delivery.inflated (size : Nat) (data : Bytes) : Delivery :=
  let (octets, isIntact) := Inflate.inPieces (size + 1) data
  ⟨octets, isIntact⟩

/-- The octets of an entry, from what is delivered for it. At most one octet more than the entry
    is said to have is taken; if there are as many, nothing else is looked at. Otherwise the
    checksum is tested before the size. -/
def ZipEntry.accept (e : ZipEntry) (d : Delivery) : Except Malformation Bytes :=
  let taken := d.octets.take (e.size + 1)
  if holds (e.size + 1) taken then .error (.entrySize e.name e.size)
  else if !d.isIntact || Crc32.checksum taken != e.crc then .error (.entryDamaged e.name)
  else if taken.length != e.size then .error (.entrySize e.name e.size)
  else .ok taken

/-- What an entry delivers from the octets of its container. -/
def ZipEntry.deliver (e : ZipEntry) (data : Bytes) : Except ZipFault Delivery :=
  let header := data.drop e.headerStart
  if e.isLocked then .error .unsupported
  else if !holds 30 header then .error .cutOff
  else if !Bytes.startsWith ZipSignature.localHeader header then .error .invalid
  else
    let start := 30 + Bytes.numberAt header 26 2 + Bytes.numberAt header 28 2
    let packed := (header.drop start).take e.compressedSize
    if e.compression = 0 then .ok ⟨packed, true⟩
    else if e.compression = 8 then .ok (.inflated e.size packed)
    else .error .unsupported

/-! ## 2. Jars -/

/-- The octets of a container with its entries. Of entries of one name the last one counts, at
    the place of the first. -/
structure Jar where
  data : Bytes
  entries : Array ZipEntry
  /-- The place of the entry of a name. -/
  places : Std.HashMap String Nat

namespace Jar

/-- Enters an entry under its name. -/
def enter (j : Jar) (e : ZipEntry) : Jar :=
  match j.places[e.name]? with
  | some i => { j with entries := j.entries.setIfInBounds i e }
  | none =>
    let place := j.entries.size
    { j with entries := j.entries.push e, places := j.places.insert e.name place }

/-- Opens a jar. -/
def ofBytes (data : Bytes) : Except Error Jar :=
  if data.isEmpty then .error .empty
  else
    match ZipDirectory.find data with
    | .error fault => .error (.zip fault)
    | .ok entries => .ok (entries.foldl enter ⟨data, #[], ∅⟩)

/-- The names of the entries in the order of the directory. -/
def names (j : Jar) : List String := j.entries.toList.map (·.name)

/-- The entry of a name. -/
def entry? (j : Jar) (name : String) : Option ZipEntry := do
  let i ← j.places[name]?
  j.entries[i]?

/-- The octets of the entry of a name, if there is one. -/
def read (j : Jar) : EntryReader := fun name =>
  match j.entry? name with
  | none => .ok none
  | some e =>
    match e.deliver j.data with
    | .error fault => .error (.zip fault)
    | .ok d =>
      match e.accept d with
      | .error m => .error (.malformed m)
      | .ok bs => .ok (some bs)

end Jar

end SdkConformance
