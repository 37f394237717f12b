import SdkConformance.Bytes.Basic

/-!
# UTF-8

* `Utf8.encode`, `Utf8.decode?`: the octets of a text and the text of octets. `decode?_eq_some_iff`
  says that decoding accepts exactly what encoding produces.
* `Utf8.decodeLossy`: the reading that always succeeds. A longest start of a character that does
  not go on as one becomes U+FFFD.
-/

namespace SdkConformance.Utf8

/-! ## 1. Exact decoding -/

/-- The octets of a text. -/
def encode (s : String) : Bytes := s.toList.flatMap String.utf8EncodeChar

/-- The text that the octets encode, if they encode one. -/
def decode? (bs : Bytes) : Option String := String.fromUTF8? bs.toByteArray

theorem toByteArray_encode (s : String) : (encode s).toByteArray = s.toByteArray := by
  rw [← String.utf8Encode_toList]; rfl

/-- Decoding accepts exactly what encoding produces. -/
theorem decode?_eq_some_iff {bs : Bytes} {s : String} : decode? bs = some s ↔ bs = encode s := by
  constructor
  · intro h
    have hs : s.toByteArray = bs.toByteArray := by
      unfold decode? String.fromUTF8? at h
      split at h
      · cases h; rfl
      · cases h
    rw [← toByteArray_encode] at hs
    have := congrArg (fun b => b.data.toList) hs
    simpa using this.symm
  · rintro rfl
    unfold decode? String.fromUTF8?
    have h : (encode s).toByteArray.IsValidUTF8 := by
      rw [toByteArray_encode]; exact s.isValidUTF8
    rw [dif_pos h]
    exact congrArg some (String.toByteArray_inj.1 (toByteArray_encode s))

theorem decode?_encode (s : String) : decode? (encode s) = some s := decode?_eq_some_iff.2 rfl

theorem encode_injective {s t : String} (h : encode s = encode t) : s = t := by
  have := decode?_encode s
  rw [h, decode?_encode] at this
  exact (Option.some.inj this).symm

theorem encode_append (s t : String) : encode (s ++ t) = encode s ++ encode t := by
  simp [encode]

/-! ## 2. Decoding that replaces what is not UTF-8 -/

/-- The octets that may follow a lead octet directly, and how many octets follow in all; `none`
    if no character of two or more octets starts with it. -/
def follow? (lead : UInt8) : Option (UInt8 × UInt8 × Nat) :=
  if 0xC2 ≤ lead && lead ≤ 0xDF then some (0x80, 0xBF, 1)
  else if lead == 0xE0 then some (0xA0, 0xBF, 2)
  else if lead == 0xED then some (0x80, 0x9F, 2)
  else if 0xE1 ≤ lead && lead ≤ 0xEF then some (0x80, 0xBF, 2)
  else if lead == 0xF0 then some (0x90, 0xBF, 3)
  else if 0xF1 ≤ lead && lead ≤ 0xF3 then some (0x80, 0xBF, 3)
  else if lead == 0xF4 then some (0x80, 0x8F, 3)
  else none

/-- A character whose first octets have been read: the value so far, how many octets are owed,
    and the range of the next one. -/
structure Pending where
  value : Nat
  owed : Nat
  low : UInt8
  high : UInt8

/-- What a lead octet begins: a whole character, or one that is pending. -/
def lead (b : UInt8) : Char ⊕ Pending :=
  if b < 0x80 then .inl (Char.ofNat b.toNat)
  else match follow? b with
    | none => .inl '\uFFFD'
    | some (low, high, owed) => .inr ⟨b.toNat % Nat.pow 2 (6 - owed), owed, low, high⟩

/-- Reads on, with the characters so far in reverse and a character that may be pending. -/
def decodeLossyFrom (done : List Char) : Option Pending → Bytes → List Char
  | none, [] => done.reverse
  | some _, [] => ('\uFFFD' :: done).reverse
  | none, b :: bs =>
    match lead b with
    | .inl c => decodeLossyFrom (c :: done) none bs
    | .inr p => decodeLossyFrom done (some p) bs
  | some p, b :: bs =>
    if p.low ≤ b && b ≤ p.high then
      let value := p.value * 64 + b.toNat % 64
      if p.owed ≤ 1 then decodeLossyFrom (Char.ofNat value :: done) none bs
      else decodeLossyFrom done (some ⟨value, p.owed - 1, 0x80, 0xBF⟩) bs
    else
      match lead b with
      | .inl c => decodeLossyFrom (c :: '\uFFFD' :: done) none bs
      | .inr q => decodeLossyFrom ('\uFFFD' :: done) (some q) bs

/-- The text of the octets, with U+FFFD for every longest broken start of a character. -/
def decodeLossy (bs : Bytes) : String := String.ofList (decodeLossyFrom [] none bs)

end SdkConformance.Utf8
