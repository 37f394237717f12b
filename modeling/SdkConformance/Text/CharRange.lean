/-!
# Ranges of characters

Classes of characters are tables of ranges in ascending order.
-/

namespace SdkConformance

/-- The characters from `first` to `last` by number, both included. -/
structure CharRange where
  first : Nat
  last : Nat
  deriving DecidableEq, Repr

/-- Whether a character is in one of the ranges; they are in ascending order. -/
def CharRange.covers : List CharRange → Char → Bool
  | [], _ => false
  | r :: rs, c => if c.toNat ≤ r.last then r.first ≤ c.toNat else covers rs c

end SdkConformance
