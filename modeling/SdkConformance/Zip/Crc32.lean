import SdkConformance.Bytes.Basic

/-!
# CRC-32

The checksum of zip entries: the reflected polynomial 0xEDB88320, started from and finished by
turning over all bits.
-/

namespace SdkConformance.Crc32

/-- One bit of the register is shifted out. -/
def shift (r : UInt32) : UInt32 :=
  if r &&& 1 == 1 then (r >>> 1) ^^^ 0xEDB88320 else r >>> 1

/-- One octet is taken into the register. -/
def step (r : UInt32) (b : UInt8) : UInt32 :=
  let r := r ^^^ b.toUInt32
  shift (shift (shift (shift (shift (shift (shift (shift r)))))))

/-- The checksum of octets. -/
def checksum (bs : Bytes) : UInt32 := bs.foldl step 0xFFFFFFFF ^^^ 0xFFFFFFFF

end SdkConformance.Crc32
