import SdkConformance.Bytes.Basic

/-!
# Entries of a zip container
-/

namespace SdkConformance

/-- What the directory says of an entry. -/
structure ZipEntry where
  name : String
  /-- The octets that the name was written in. -/
  rawName : Bytes
  comment : String
  isEncrypted : Bool
  /-- Whether the entry has a field about AES encryption. -/
  hasAes : Bool
  /-- The number of the compression method. -/
  compression : Nat
  /-- The checksum of the octets of the entry. -/
  crc : UInt32
  compressedSize : Nat
  size : Nat
  /-- Where the local header of the entry is. -/
  headerStart : Nat
  deriving DecidableEq, Repr

namespace ZipEntry

/-- The number that a size or an offset has if the true one is in an extra field. -/
def elsewhere : Nat := 0xFFFFFFFF

/-- The number of the compression method of an entry whose AES field names the true one. -/
def aesMethod : Nat := 99

/-- Whether nobody can read the entry without a key. -/
def isLocked (e : ZipEntry) : Bool := e.isEncrypted || e.hasAes

end ZipEntry

end SdkConformance
