import SdkConformance.Error
import SdkConformance.Text.WhiteSpace

/-!
# Version keys

A key is the decimal number of a version, of ASCII digits only and at most `2 ^ 32 - 1`, with any
white space around it and any zeros before it.
-/

namespace SdkConformance

/-- A version and the path of its archive. -/
structure VersionEntry where
  version : UInt32
  path : String
  deriving DecidableEq, Repr

/-- The version that a key stands for. -/
def versionOfKey? (key : String) : Option UInt32 :=
  match Digits.decimal? (trimChars key.toList) with
  | some n => if n < UInt32.size then some (UInt32.ofNat n) else none
  | none => none

/-- The entry of a key and a path; an error carries the key as handed over. -/
def VersionEntry.parse (key path : String) : Except Error VersionEntry :=
  match versionOfKey? key with
  | some version => .ok ⟨version, path⟩
  | none => .error (.invalidVersionNumber key)

end SdkConformance
