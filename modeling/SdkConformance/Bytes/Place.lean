import SdkConformance.Bytes.Basic

/-!
# Places in byte sequences

* `Bytes.numberAt`: the number at a place, least significant octet first;
* `Bytes.startsWith`, `Bytes.places`: where a sequence of octets occurs.
-/

namespace SdkConformance.Bytes

/-- The number of `width` octets at an offset; octets that are missing count for nothing. -/
def numberAt (bs : Bytes) (offset width : Nat) : Nat :=
  littleEndian ((bs.drop offset).take width)

/-- Whether octets start with a signature. -/
def startsWith (signature bs : Bytes) : Bool := bs.take signature.length == signature

/-- The places before those in `done` and those themselves; `offset` is that of the octets. -/
def placesFrom (signature : Bytes) (offset : Nat) (done : List Nat) : Bytes → List Nat
  | [] => done
  | b :: bs =>
    placesFrom signature (offset + 1)
      (if startsWith signature (b :: bs) then offset :: done else done) bs

/-- Where a signature occurs, last place first. -/
def places (signature bs : Bytes) : List Nat := placesFrom signature 0 [] bs

/-- Where a signature occurs in the octets from `first` up to `last`, first place first. -/
def placesBetween (signature : Bytes) (first last : Nat) (bs : Bytes) : List Nat :=
  (placesFrom signature first [] ((bs.take last).drop first)).reverse

end SdkConformance.Bytes
