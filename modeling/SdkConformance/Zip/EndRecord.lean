import SdkConformance.Bytes.Place
import SdkConformance.Error

/-!
# End records

A zip container ends in a record that leads to its directory. Numbers that are too large for it
are in a long record, which a locator right before the end record leads to. Octets may precede the
container, so what a record leads to is looked for from where it should be, and all offsets are
counted from where it is.

* `EndRecord.place`: where the directory of an end record is.
-/

namespace SdkConformance

/-! ## 1. Signatures and places -/

namespace ZipSignature

def localHeader : Bytes := [0x50, 0x4B, 0x03, 0x04]
def header : Bytes := [0x50, 0x4B, 0x01, 0x02]
def endRecord : Bytes := [0x50, 0x4B, 0x05, 0x06]
def longEndRecord : Bytes := [0x50, 0x4B, 0x06, 0x06]
def locator : Bytes := [0x50, 0x4B, 0x06, 0x07]

end ZipSignature

/-- Where a directory is. -/
structure DirectoryPlace where
  /-- How many octets precede the container. -/
  shift : Nat
  /-- Where the directory starts. -/
  start : Nat
  /-- How many headers it has. -/
  count : Nat
  /-- Whether the record that leads here does not contradict itself or tell of several disks. -/
  isSound : Bool
  deriving DecidableEq, Repr

/-! ## 2. Short records -/

/-- What an end record says. -/
structure EndRecord where
  disk : Nat
  directoryDisk : Nat
  /-- The number of entries on this disk, and of all entries. -/
  diskEntries : Nat
  entries : Nat
  /-- Where the directory starts. -/
  directoryOffset : Nat
  deriving DecidableEq, Repr

namespace EndRecord

/-- The end record at the start of the octets; its comment must be complete. -/
def read (bs : Bytes) : Except ZipFault EndRecord :=
  let n := Bytes.numberAt bs
  if !holds 22 bs then .error .cutOff
  else if !holds (22 + n 20 2) bs then .error .invalid
  else .ok ⟨n 4 2, n 6 2, n 8 2, n 10 2, n 16 4⟩

/-- Whether there may be a long record. -/
def mayBeLong (e : EndRecord) : Bool :=
  e.entries == 0xFFFF || e.directoryOffset == 0xFFFFFFFF

/-- The directory behind so many octets that precede the container. -/
def placeBehind (e : EndRecord) (shift : Nat) : DirectoryPlace :=
  { shift, start := e.directoryOffset + shift, count := e.diskEntries
    isSound := e.disk == e.directoryDisk }

/-- Where the directory of a record at `offset` is: at the first header from where the record says
    it is, or, if there is none, at the record itself. -/
def shortPlace (e : EndRecord) (data : Bytes) (offset : Nat) : Except ZipFault DirectoryPlace :=
  if e.entries = 0 then .ok (e.placeBehind (offset - e.directoryOffset))
  else
    match Bytes.placesBetween ZipSignature.header e.directoryOffset offset data with
    | [] => .error .invalid
    | start :: _ => .ok (e.placeBehind (start - e.directoryOffset))

end EndRecord

/-! ## 3. Long records -/

/-- What a locator says. -/
structure EndLocator where
  directoryDisk : Nat
  /-- Where the long record is. -/
  recordOffset : Nat
  disks : Nat
  deriving DecidableEq, Repr

/-- How many octets a locator has. -/
def EndLocator.length : Nat := 20

/-- The locator at the start of the octets. -/
def EndLocator.read? (bs : Bytes) : Option EndLocator :=
  let n := Bytes.numberAt bs
  if Bytes.startsWith ZipSignature.locator bs then some ⟨n 4 4, n 8 8, n 16 4⟩ else none

/-- What a long record says. -/
structure LongEndRecord where
  /-- The length of the record after this number. -/
  size : Nat
  /-- The version of the format that wrote the container, and the one that can read it. -/
  madeBy : Nat
  needed : Nat
  disk : Nat
  directoryDisk : Nat
  diskEntries : Nat
  entries : Nat
  directoryOffset : Nat
  deriving DecidableEq, Repr

namespace LongEndRecord

/-- The long record at the start of the octets. -/
def read (bs : Bytes) : Except ZipFault LongEndRecord :=
  let n := Bytes.numberAt bs
  if holds 56 bs then
    .ok ⟨n 4 8, n 12 2, n 14 2, n 16 4, n 20 4, n 24 8, n 32 8, n 48 8⟩
  else .error .cutOff

/-- Whether a record at `offset` fills the octets up to the locator and agrees with it, and so many
    headers fit in before it. -/
def fits (r : LongEndRecord) (l : EndLocator) (offset locatorOffset : Nat) : Bool :=
  44 ≤ r.size && offset + 12 + r.size == locatorOffset && r.directoryDisk == l.directoryDisk &&
  r.entries * 46 + r.directoryOffset ≤ offset

/-- The directory behind so many octets that precede the container. -/
def placeBehind (r : LongEndRecord) (shift : Nat) : DirectoryPlace :=
  { shift, start := r.directoryOffset + shift, count := r.entries
    isSound := r.disk == r.directoryDisk && r.diskEntries ≤ r.entries && r.needed ≤ r.madeBy }

/-- The directory of the first record that fits, of those at the given offsets. -/
def firstFitting (data : Bytes) (l : EndLocator) (locatorOffset : Nat) :
    List Nat → ZipFault → Except ZipFault DirectoryPlace
  | [], fault => .error fault
  | offset :: later, _ =>
    match read (data.drop offset) with
    | .error fault => firstFitting data l locatorOffset later fault
    | .ok r =>
      if r.fits l offset locatorOffset then .ok (r.placeBehind (offset - l.recordOffset))
      else firstFitting data l locatorOffset later .invalid

end LongEndRecord

/-- Where the directory is that a locator at `offset` leads to. -/
def EndLocator.place (l : EndLocator) (data : Bytes) (offset : Nat) :
    Except ZipFault DirectoryPlace :=
  if 1 < l.disks then .error .invalid
  else
    let offsets := Bytes.placesBetween ZipSignature.longEndRecord l.recordOffset offset data
    LongEndRecord.firstFitting data l offset offsets .invalid

/-! ## 4. Both kinds -/

/-- Where the directory of an end record at `offset` is. -/
def EndRecord.place (e : EndRecord) (data : Bytes) (offset : Nat) :
    Except ZipFault DirectoryPlace :=
  let locator? :=
    if e.mayBeLong && EndLocator.length ≤ offset then
      EndLocator.read? (data.drop (offset - EndLocator.length))
    else none
  match locator? with
  | none => e.shortPlace data offset
  | some l => l.place data (offset - EndLocator.length)

end SdkConformance
