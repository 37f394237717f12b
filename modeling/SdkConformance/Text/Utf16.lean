/-!
# UTF-16

* `Utf16.encode`, `Utf16.decode?`: a text as 16-bit units, and the text of units in which every
  surrogate belongs to a pair.
* `decode?_encode`: what was encoded is read back.
-/

namespace SdkConformance.Utf16

/-! ## 1. Surrogates -/

/-- The first unit of a surrogate pair. -/
def isHigh (u : UInt16) : Bool := 0xD800 ≤ u && u < 0xDC00

/-- The second unit of a surrogate pair. -/
def isLow (u : UInt16) : Bool := 0xDC00 ≤ u && u < 0xE000

/-- The character of a surrogate pair. -/
def ofPair (high low : UInt16) : Char :=
  Char.ofNat (0x10000 + (high.toNat - 0xD800) * 0x400 + (low.toNat - 0xDC00))

/-! ## 2. Encoding and decoding -/

/-- The units of one character. -/
def ofChar (c : Char) : List UInt16 :=
  if c.toNat < 0x10000 then [UInt16.ofNat c.toNat]
  else
    let n := c.toNat - 0x10000
    [UInt16.ofNat (0xD800 + n / 0x400), UInt16.ofNat (0xDC00 + n % 0x400)]

/-- The units of a text. -/
def encode (cs : List Char) : List UInt16 := cs.flatMap ofChar

/-- Reads on, with the characters so far in reverse. -/
def decodeFrom (done : List Char) : List UInt16 → Option (List Char)
  | [] => some done.reverse
  | u :: us =>
    if isHigh u then
      match us with
      | [] => none
      | v :: vs => if isLow v then decodeFrom (ofPair u v :: done) vs else none
    else if isLow u then none
    else decodeFrom (Char.ofNat u.toNat :: done) us

/-- The text of the units, if every surrogate is part of a pair of a high and a low one. -/
def decode? (us : List UInt16) : Option (List Char) := decodeFrom [] us

/-! ## 3. What was encoded is read back -/

theorem decodeFrom_ofChar (done : List Char) (c : Char) (us : List UInt16) :
    decodeFrom done (ofChar c ++ us) = decodeFrom (c :: done) us := by
  have hv : c.toNat < 0xD800 ∨ 0xDFFF < c.toNat ∧ c.toNat < 0x110000 := by
    have := c.valid
    simpa [UInt32.isValidChar, Nat.isValidChar] using this
  unfold ofChar
  split
  · rename_i h
    have hn : (UInt16.ofNat c.toNat).toNat = c.toNat := by
      simp; omega
    have h₁ : isHigh (UInt16.ofNat c.toNat) = false := by
      simp only [isHigh, Bool.and_eq_false_iff, decide_eq_false_iff_not, UInt16.le_iff_toNat_le,
        UInt16.lt_iff_toNat_lt, hn]
      simp; omega
    have h₂ : isLow (UInt16.ofNat c.toNat) = false := by
      simp only [isLow, Bool.and_eq_false_iff, decide_eq_false_iff_not, UInt16.le_iff_toNat_le,
        UInt16.lt_iff_toNat_lt, hn]
      simp; omega
    simp only [List.cons_append, List.nil_append]
    rw [decodeFrom.eq_def]
    simp only [h₁, h₂, hn, Bool.false_eq_true, if_false, Char.ofNat_toNat]
  · rename_i h
    have hh : (UInt16.ofNat (0xD800 + (c.toNat - 0x10000) / 0x400)).toNat =
        0xD800 + (c.toNat - 0x10000) / 0x400 := by
      simp; omega
    have hl : (UInt16.ofNat (0xDC00 + (c.toNat - 0x10000) % 0x400)).toNat =
        0xDC00 + (c.toNat - 0x10000) % 0x400 := by
      simp; omega
    have h₁ : isHigh (UInt16.ofNat (0xD800 + (c.toNat - 0x10000) / 0x400)) = true := by
      simp only [isHigh, Bool.and_eq_true, decide_eq_true_eq, UInt16.le_iff_toNat_le,
        UInt16.lt_iff_toNat_lt, hh]
      simp; omega
    have h₂ : isLow (UInt16.ofNat (0xDC00 + (c.toNat - 0x10000) % 0x400)) = true := by
      simp only [isLow, Bool.and_eq_true, decide_eq_true_eq, UInt16.le_iff_toNat_le,
        UInt16.lt_iff_toNat_lt, hl]
      simp; omega
    have h₃ : ofPair (UInt16.ofNat (0xD800 + (c.toNat - 0x10000) / 0x400))
        (UInt16.ofNat (0xDC00 + (c.toNat - 0x10000) % 0x400)) = c := by
      rw [ofPair, hh, hl]
      have : 0x10000 + (0xD800 + (c.toNat - 0x10000) / 0x400 - 0xD800) * 0x400 +
          (0xDC00 + (c.toNat - 0x10000) % 0x400 - 0xDC00) = c.toNat := by omega
      rw [this, Char.ofNat_toNat]
    simp only [List.cons_append, List.nil_append]
    rw [decodeFrom.eq_def]
    simp only [h₁, h₂, h₃, if_true]

theorem decodeFrom_encode (done cs : List Char) :
    decodeFrom done (encode cs) = some (done.reverse ++ cs) := by
  induction cs generalizing done with
  | nil => simp [encode, decodeFrom]
  | cons c cs ih =>
    have : encode (c :: cs) = ofChar c ++ encode cs := by simp [encode]
    rw [this, decodeFrom_ofChar, ih]
    simp

theorem decode?_encode (cs : List Char) : decode? (encode cs) = some cs := by
  simp [decode?, decodeFrom_encode]

end SdkConformance.Utf16
