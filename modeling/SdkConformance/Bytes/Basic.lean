/-!
# Byte sequences and the numbers written in them

A byte sequence is a list of octets. This module reads numbers out of it:

* `Bytes.bigEndian`, `Bytes.littleEndian`: the value of a sequence, most or least significant
  octet first; `Bytes.span` is the number of values that so many octets have;
* `twosComplement`: the signed reading of a value of a given width;
* `holds`: whether a list has at least so many elements, decided without walking further.
-/

namespace SdkConformance

/-- A sequence of octets. -/
abbrev Bytes := List UInt8

/-! ## 1. Numbers -/

/-- The value of a sequence whose first octet is the most significant. -/
def Bytes.bigEndian (bs : Bytes) : Nat :=
  bs.foldl (fun n b => n * 256 + b.toNat) 0

/-- The value of a sequence whose first octet is the least significant. -/
def Bytes.littleEndian : Bytes → Nat
  | [] => 0
  | b :: bs => b.toNat + 256 * Bytes.littleEndian bs

/-- How many values `width` octets have. -/
def Bytes.span (width : Nat) : Nat := Nat.pow 256 width

@[simp] theorem Bytes.span_zero : Bytes.span 0 = 1 := rfl

theorem Bytes.span_succ (width : Nat) : Bytes.span (width + 1) = 256 * Bytes.span width :=
  Nat.mul_comm _ _

/-- The signed number that `n`, read from `width` octets, denotes in two's complement. -/
def twosComplement (width n : Nat) : Int :=
  if 2 * n < Bytes.span width then n else (n : Int) - Bytes.span width

/-- The `width` octets of `n`, most significant first; what exceeds them is dropped. -/
def Bytes.ofNatBigEndian : (width n : Nat) → Bytes
  | 0, _ => []
  | width + 1, n => Bytes.ofNatBigEndian width (n / 256) ++ [UInt8.ofNat n]

@[simp] theorem Bytes.bigEndian_nil : Bytes.bigEndian [] = 0 := rfl

theorem Bytes.bigEndian_concat (bs : Bytes) (b : UInt8) :
    Bytes.bigEndian (bs ++ [b]) = Bytes.bigEndian bs * 256 + b.toNat := by
  simp [Bytes.bigEndian]

@[simp] theorem Bytes.length_ofNatBigEndian (width n : Nat) :
    (Bytes.ofNatBigEndian width n).length = width := by
  induction width generalizing n with
  | zero => rfl
  | succ w ih => simp [Bytes.ofNatBigEndian, ih]

/-- Writing a number in `width` octets and reading it back keeps it modulo `span width`. -/
theorem Bytes.bigEndian_ofNatBigEndian (width n : Nat) :
    Bytes.bigEndian (Bytes.ofNatBigEndian width n) = n % Bytes.span width := by
  induction width generalizing n with
  | zero => simp [Bytes.ofNatBigEndian, Nat.mod_one]
  | succ w ih =>
    rw [Bytes.ofNatBigEndian, Bytes.bigEndian_concat, ih, Bytes.span_succ, Nat.mod_mul,
      UInt8.toNat_ofNat']
    omega

/-! ## 2. Length tests -/

/-- Whether `l` has at least `n` elements; at most `n` of them are looked at. -/
def holds {α : Type} : (n : Nat) → (l : List α) → Bool
  | 0, _ => true
  | n + 1, l => !(l.drop n).isEmpty

theorem holds_iff {α : Type} {n : Nat} {l : List α} : holds n l = true ↔ n ≤ l.length := by
  cases n with
  | zero => simp [holds]
  | succ n =>
    rw [holds, Bool.not_eq_true', List.isEmpty_eq_false_iff, ne_eq, List.drop_eq_nil_iff]
    omega

end SdkConformance
