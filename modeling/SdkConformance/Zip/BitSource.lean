import SdkConformance.Bytes.Basic

/-!
# Octets read bit by bit

A deflate stream is read from the lowest bit of each octet up.
-/

namespace SdkConformance

/-- Octets of which the first may have been used in part. -/
structure BitSource where
  /-- The unused bits of the octet under way, lowest first. -/
  current : Nat
  /-- How many of them there are. -/
  left : Nat
  /-- The octets after it. -/
  rest : Bytes

namespace BitSource

/-- All bits of the octets. -/
def ofBytes (bs : Bytes) : BitSource := ⟨0, 0, bs⟩

/-- How many bits there are. -/
def size (s : BitSource) : Nat := 8 * s.rest.length + s.left

/-- The next bit, as a number. -/
def bit? (s : BitSource) : Option (Nat × BitSource) :=
  match s.left with
  | left + 1 => some (s.current % 2, ⟨s.current / 2, left, s.rest⟩)
  | 0 =>
    match s.rest with
    | [] => none
    | b :: rest => some (b.toNat % 2, ⟨b.toNat / 2, 7, rest⟩)

/-- A bit is one of those there are. -/
theorem size_bit? {s s' : BitSource} {b : Nat} (h : s.bit? = some (b, s')) :
    s'.size + 1 = s.size := by
  obtain ⟨current, left, rest⟩ := s
  cases left with
  | succ left =>
    simp only [bit?, Option.some.injEq, Prod.mk.injEq] at h
    obtain ⟨_, rfl⟩ := h
    simp [size]; omega
  | zero =>
    cases rest with
    | nil => cases h
    | cons b rest =>
      simp only [bit?, Option.some.injEq, Prod.mk.injEq] at h
      obtain ⟨_, rfl⟩ := h
      simp [size]; omega

/-- The number in the next `n` bits, lowest first. -/
def bits? : (n : Nat) → BitSource → Option (Nat × BitSource)
  | 0, s => some (0, s)
  | n + 1, s => do
    let (b, s) ← s.bit?
    let (v, s) ← bits? n s
    return (b + 2 * v, s)

theorem size_bits? {n : Nat} {s s' : BitSource} {v : Nat} (h : s.bits? n = some (v, s')) :
    s'.size + n = s.size := by
  induction n generalizing s v with
  | zero =>
    cases h
    rfl
  | succ n ih =>
    obtain ⟨⟨b, s₁⟩, hbit, h⟩ := Option.bind_eq_some_iff.mp h
    obtain ⟨⟨w, s₂⟩, hbits, h⟩ := Option.bind_eq_some_iff.mp h
    cases h
    have hfirst := size_bit? hbit
    have hothers := ih hbits
    omega

/-- The octets after the one under way. -/
def aligned (s : BitSource) : Bytes := s.rest

/-- How many octets no bit was taken from. -/
def unread (s : BitSource) : Nat := s.rest.length

end BitSource

end SdkConformance
