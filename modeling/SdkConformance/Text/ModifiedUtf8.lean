import SdkConformance.Text.Digits
import SdkConformance.Text.Utf16
import SdkConformance.Text.Utf8

/-!
# Modified UTF-8, the text encoding of class files

A text is written unit by unit of its UTF-16 form, each unit in one to three octets, and the unit
zero in two. So no octet is zero, and a character beyond U+FFFF takes six octets.

* `ModifiedUtf8.encode`, `ModifiedUtf8.decode`: writing and reading a text;
* `units`: the units that octets spell, with the first octet that spells none;
* `decode` reads octets without NUL and without a set high bit directly as ASCII.
-/

namespace SdkConformance.ModifiedUtf8

/-! ## 1. What can be wrong -/

/-- Why octets are no text in modified UTF-8. -/
inductive Fault where
  /-- No unit starts with this octet. -/
  | leadByte (byte : UInt8) (index : Nat)
  /-- A unit is not continued by this octet. -/
  | continuationByte (byte : UInt8) (index : Nat)
  /-- The octets end inside a unit. -/
  | truncated
  /-- A surrogate stands alone. -/
  | surrogates
  /-- Octets taken for ASCII are no text. -/
  | notAscii
  deriving DecidableEq, Repr

/-- What is reported about octets that are no text. -/
def Fault.message : Fault → String
  | .leadByte byte index =>
    s!"Invalid modified UTF-8 lead byte 0x{Digits.hexUpper 2 byte.toNat} at {index}"
  | .continuationByte byte index =>
    s!"Invalid modified UTF-8 continuation byte 0x{Digits.hexUpper 2 byte.toNat} at {index}"
  | .truncated => "Truncated modified UTF-8 sequence"
  | .surrogates => "Invalid surrogate sequence in string constant"
  | .notAscii => "Invalid string constant"

/-! ## 2. Units -/

/-- An octet that carries six bits of a unit. -/
def isContinuation (b : UInt8) : Bool := 0x80 ≤ b && b ≤ 0xBF

/-- The unit of two octets: five and six bits. -/
def unit₂ (a b : UInt8) : UInt16 :=
  UInt16.ofNat (a.toNat % 0x20 * 0x40 + b.toNat % 0x40)

/-- The unit of three octets: four, six and six bits. -/
def unit₃ (a b c : UInt8) : UInt16 :=
  UInt16.ofNat (a.toNat % 0x10 * 0x1000 + b.toNat % 0x40 * 0x40 + c.toNat % 0x40)

/-- The octets of a unit. Zero takes two, so that no octet is zero. -/
def unitBytes (u : UInt16) : Bytes :=
  let n := u.toNat
  if 0 < n ∧ n < 0x80 then [UInt8.ofNat n]
  else if n < 0x800 then [UInt8.ofNat (0xC0 + n / 0x40), UInt8.ofNat (0x80 + n % 0x40)]
  else [UInt8.ofNat (0xE0 + n / 0x1000), UInt8.ofNat (0x80 + n / 0x40 % 0x40),
    UInt8.ofNat (0x80 + n % 0x40)]

/-- The units that the octets from `index` on spell, after the units `done` in reverse. -/
def unitsFrom (index : Nat) (done : List UInt16) : Bytes → Except Fault (List UInt16)
  | [] => .ok done.reverse
  | a :: bs =>
    if 0x01 ≤ a && a ≤ 0x7F then unitsFrom (index + 1) (a.toUInt16 :: done) bs
    else if 0xC0 ≤ a && a ≤ 0xDF then
      match bs with
      | [] => .error .truncated
      | b :: bs =>
        if isContinuation b then unitsFrom (index + 2) (unit₂ a b :: done) bs
        else .error (.continuationByte b (index + 1))
    else if 0xE0 ≤ a && a ≤ 0xEF then
      match bs with
      | [] => .error .truncated
      | b :: bs =>
        if isContinuation b then
          match bs with
          | [] => .error .truncated
          | c :: bs =>
            if isContinuation c then unitsFrom (index + 3) (unit₃ a b c :: done) bs
            else .error (.continuationByte c (index + 2))
        else .error (.continuationByte b (index + 1))
    else .error (.leadByte a index)

/-- The units that the octets spell. -/
def units (bs : Bytes) : Except Fault (List UInt16) := unitsFrom 0 [] bs

/-! ## 3. Texts -/

/-- Octets that are ASCII characters other than NUL. -/
def isPlain (bs : Bytes) : Bool := bs.all fun b => b != 0 && b < 0x80

/-- The text of plain octets. -/
def decodePlain (bs : Bytes) : Except Fault String :=
  match Utf8.decode? bs with
  | some s => .ok s
  | none => .error .notAscii

/-- The text of any octets, by way of their units. -/
def decodeUnits (bs : Bytes) : Except Fault String :=
  match units bs with
  | .error f => .error f
  | .ok us =>
    match Utf16.decode? us with
    | some cs => .ok (String.ofList cs)
    | none => .error .surrogates

/-- The text of octets in modified UTF-8. -/
def decode (bs : Bytes) : Except Fault String :=
  if isPlain bs then decodePlain bs else decodeUnits bs

/-- The octets of a text in modified UTF-8. -/
def encode (s : String) : Bytes := (Utf16.encode s.toList).flatMap unitBytes

/-! ## 4. Every unit is read back -/

theorem unitsFrom_unitBytes (index : Nat) (done : List UInt16) (u : UInt16) (bs : Bytes) :
    ∃ n, unitsFrom index done (unitBytes u ++ bs) = unitsFrom (index + n) (u :: done) bs := by
  have hu : u.toNat < 0x10000 := u.toNat_lt
  unfold unitBytes
  simp only
  split
  · rename_i h
    refine ⟨1, ?_⟩
    have ha : (UInt8.ofNat u.toNat).toNat = u.toNat := by simp; omega
    have h₁ : (0x01 ≤ UInt8.ofNat u.toNat && UInt8.ofNat u.toNat ≤ 0x7F) = true := by
      simp only [Bool.and_eq_true, decide_eq_true_eq, UInt8.le_iff_toNat_le, ha]
      simp; omega
    have h₂ : (UInt8.ofNat u.toNat).toUInt16 = u := by
      apply UInt16.toNat_inj.1
      rw [UInt8.toNat_toUInt16, ha]
    simp only [List.cons_append, List.nil_append]
    rw [unitsFrom.eq_def]
    simp only [h₁, h₂, if_true]
  · rename_i h
    split
    · rename_i h'
      refine ⟨2, ?_⟩
      have ha : (UInt8.ofNat (0xC0 + u.toNat / 0x40)).toNat = 0xC0 + u.toNat / 0x40 := by
        simp; omega
      have hb : (UInt8.ofNat (0x80 + u.toNat % 0x40)).toNat = 0x80 + u.toNat % 0x40 := by
        simp; omega
      simp only [List.cons_append, List.nil_append]
      rw [unitsFrom.eq_def]
      simp only [isContinuation, unit₂, UInt8.le_iff_toNat_le, ha, hb]
      have e : (0xC0 + u.toNat / 0x40) % 0x20 * 0x40 + (0x80 + u.toNat % 0x40) % 0x40 =
          u.toNat := by omega
      rw [e, UInt16.ofNat_toNat]
      simp
      rw [if_neg (by omega), if_pos (by omega), if_pos (by omega)]
    · rename_i h'
      refine ⟨3, ?_⟩
      have ha : (UInt8.ofNat (0xE0 + u.toNat / 0x1000)).toNat = 0xE0 + u.toNat / 0x1000 := by
        simp; omega
      have hb : (UInt8.ofNat (0x80 + u.toNat / 0x40 % 0x40)).toNat =
          0x80 + u.toNat / 0x40 % 0x40 := by
        simp; omega
      have hc : (UInt8.ofNat (0x80 + u.toNat % 0x40)).toNat = 0x80 + u.toNat % 0x40 := by
        simp; omega
      simp only [List.cons_append, List.nil_append]
      rw [unitsFrom.eq_def]
      simp only [isContinuation, unit₃, UInt8.le_iff_toNat_le, ha, hb, hc]
      have e : (0xE0 + u.toNat / 0x1000) % 0x10 * 0x1000 +
          (0x80 + u.toNat / 0x40 % 0x40) % 0x40 * 0x40 + (0x80 + u.toNat % 0x40) % 0x40 =
          u.toNat := by omega
      rw [e, UInt16.ofNat_toNat]
      simp
      rw [if_neg (by omega), if_neg (by omega), if_pos (by omega), if_pos (by omega),
        if_pos (by omega)]

theorem unitsFrom_flatMap_unitBytes (index : Nat) (done us : List UInt16) :
    unitsFrom index done (us.flatMap unitBytes) = .ok (done.reverse ++ us) := by
  induction us generalizing index done with
  | nil => simp [unitsFrom]
  | cons u us ih =>
    obtain ⟨n, hn⟩ := unitsFrom_unitBytes index done u (us.flatMap unitBytes)
    rw [List.flatMap_cons, hn, ih]
    simp

theorem decodeUnits_encode (s : String) : decodeUnits (encode s) = .ok s := by
  simp [decodeUnits, encode, units, unitsFrom_flatMap_unitBytes, Utf16.decode?_encode]

end SdkConformance.ModifiedUtf8
