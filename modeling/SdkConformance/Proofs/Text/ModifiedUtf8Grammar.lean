import SdkConformance.Text.ModifiedUtf8

/-!
# Which octets are modified UTF-8

The decoder walks over octets and takes a shorter way for ASCII. Here the octets that it accepts are
given by a grammar, without any walking.

* `ModifiedUtf8.Spells`: octets that are the forms of some units, one after the other;
  `unitsFrom_eq_ok_iff` says that these are the units that the decoder finds;
* `Utf16.decode?_eq_some_iff`: units have a text exactly when they are the units of that text;
* `decode_eq_ok_iff`: octets are decoded to a text exactly when they spell its units.
-/

namespace SdkConformance

/-! ## 1. UTF-16 -/

namespace Utf16

theorem isHigh_iff {u : UInt16} : isHigh u = true ↔ 0xD800 ≤ u.toNat ∧ u.toNat < 0xDC00 := by
  simp [isHigh, UInt16.le_iff_toNat_le, UInt16.lt_iff_toNat_lt]

theorem isLow_iff {u : UInt16} : isLow u = true ↔ 0xDC00 ≤ u.toNat ∧ u.toNat < 0xE000 := by
  simp [isLow, UInt16.le_iff_toNat_le, UInt16.lt_iff_toNat_lt]

/-- A number that is no surrogate and not too large is that of its character. -/
theorem toNat_ofNat {n : Nat} (h : n < 0xD800 ∨ 0xDFFF < n ∧ n < 0x110000) :
    (Char.ofNat n).toNat = n := by
  have hv : n.isValidChar := h
  rw [Char.ofNat, dif_pos hv]
  rfl

/-- A unit that is no surrogate is the only one of its character. -/
theorem ofChar_ofNat {u : UInt16} (hh : ¬ isHigh u = true) (hl : ¬ isLow u = true) :
    ofChar (Char.ofNat u.toNat) = [u] := by
  rw [isHigh_iff] at hh
  rw [isLow_iff] at hl
  have hu : u.toNat < 0x10000 := u.toNat_lt
  rw [ofChar, toNat_ofNat (by omega), if_pos hu, UInt16.ofNat_toNat]

/-- A pair of surrogates is what its character is written as. -/
theorem ofChar_ofPair {u v : UInt16} (hu : isHigh u = true) (hv : isLow v = true) :
    ofChar (ofPair u v) = [u, v] := by
  rw [isHigh_iff] at hu
  rw [isLow_iff] at hv
  have hn : (ofPair u v).toNat = 0x10000 + (u.toNat - 0xD800) * 0x400 + (v.toNat - 0xDC00) := by
    rw [ofPair, toNat_ofNat (by omega)]
  have hhigh : 0xD800 + ((ofPair u v).toNat - 0x10000) / 0x400 = u.toNat := by
    rw [hn]; omega
  have hlow : 0xDC00 + ((ofPair u v).toNat - 0x10000) % 0x400 = v.toNat := by
    rw [hn]; omega
  rw [ofChar, if_neg (by rw [hn]; omega)]
  show [UInt16.ofNat _, UInt16.ofNat _] = _
  rw [hhigh, hlow, UInt16.ofNat_toNat, UInt16.ofNat_toNat]

theorem encode_cons (c : Char) (cs : List Char) : encode (c :: cs) = ofChar c ++ encode cs := rfl

/-- What is decoded encodes to the units that were read. -/
theorem encode_of_decodeFrom {done cs : List Char} {us : List UInt16}
    (h : decodeFrom done us = some cs) : ∃ ds, cs = done.reverse ++ ds ∧ us = encode ds := by
  fun_induction decodeFrom done us with
  | case1 done =>
    cases h
    exact ⟨[], (List.append_nil _).symm, rfl⟩
  | case2 => cases h
  | case3 done u hu v vs hv ih =>
    obtain ⟨ds, rfl, rfl⟩ := ih h
    refine ⟨ofPair u v :: ds, by simp, ?_⟩
    rw [encode_cons, ofChar_ofPair hu hv]
    rfl
  | case4 => cases h
  | case5 => cases h
  | case6 done u us hu hl ih =>
    obtain ⟨ds, rfl, rfl⟩ := ih h
    refine ⟨Char.ofNat u.toNat :: ds, by simp, ?_⟩
    rw [encode_cons, ofChar_ofNat hu hl]
    rfl

/-- **Units have a text exactly when they are the units of that text.** -/
theorem decode?_eq_some_iff {us : List UInt16} {cs : List Char} :
    decode? us = some cs ↔ us = encode cs := by
  constructor
  · intro h
    obtain ⟨ds, rfl, hus⟩ := encode_of_decodeFrom h
    exact hus
  · intro hx
    subst hx
    exact decode?_encode cs

end Utf16

namespace ModifiedUtf8

/-! ## 2. Units -/

theorem isContinuation_iff {b : UInt8} : isContinuation b = true ↔ 0x80 ≤ b ∧ b ≤ 0xBF := by
  simp [isContinuation]

/-- Octets that are units one after the other, each in one of the three forms. -/
inductive Spells : Bytes → List UInt16 → Prop
  | nil : Spells [] []
  /-- Seven bits, not all of them zero. -/
  | one {a bs us} (ha : 0x01 ≤ a ∧ a ≤ 0x7F) (rest : Spells bs us) :
      Spells (a :: bs) (a.toUInt16 :: us)
  /-- Five and six bits. -/
  | two {a b bs us} (ha : 0xC0 ≤ a ∧ a ≤ 0xDF) (hb : 0x80 ≤ b ∧ b ≤ 0xBF)
      (rest : Spells bs us) : Spells (a :: b :: bs) (unit₂ a b :: us)
  /-- Four, six and six bits. -/
  | three {a b c bs us} (ha : 0xE0 ≤ a ∧ a ≤ 0xEF) (hb : 0x80 ≤ b ∧ b ≤ 0xBF)
      (hc : 0x80 ≤ c ∧ c ≤ 0xBF) (rest : Spells bs us) :
      Spells (a :: b :: c :: bs) (unit₃ a b c :: us)

/-- What the walk finds is spelled by the octets. -/
theorem spells_of_unitsFrom {index : Nat} {done us : List UInt16} {bs : Bytes}
    (h : unitsFrom index done bs = .ok us) : ∃ vs, us = done.reverse ++ vs ∧ Spells bs vs := by
  fun_induction unitsFrom index done bs with
  | case1 =>
    cases h
    exact ⟨[], (List.append_nil _).symm, .nil⟩
  | case2 index done a bs ha ih =>
    obtain ⟨vs, rfl, hvs⟩ := ih h
    exact ⟨a.toUInt16 :: vs, by simp, .one (by simpa using ha) hvs⟩
  | case3 => cases h
  | case4 index done a _ ha b bs hb ih =>
    obtain ⟨vs, rfl, hvs⟩ := ih h
    exact ⟨unit₂ a b :: vs, by simp, .two (by simpa using ha) (isContinuation_iff.mp hb) hvs⟩
  | case5 => cases h
  | case6 => cases h
  | case7 => cases h
  | case8 index done a _ _ ha b hb c bs hc ih =>
    obtain ⟨vs, rfl, hvs⟩ := ih h
    exact ⟨unit₃ a b c :: vs, by simp,
      .three (by simpa using ha) (isContinuation_iff.mp hb) (isContinuation_iff.mp hc) hvs⟩
  | case9 => cases h
  | case10 => cases h
  | case11 => cases h

/-- The walk finds what the octets spell. -/
theorem unitsFrom_of_spells {bs : Bytes} {vs : List UInt16} (h : Spells bs vs) (index : Nat)
    (done : List UInt16) : unitsFrom index done bs = .ok (done.reverse ++ vs) := by
  -- each form excludes the ones that the walk tries before it
  induction h generalizing index done with
  | nil => simp [unitsFrom]
  | @one a bs us ha _ ih =>
    have h₁ : (0x01 ≤ a && a ≤ 0x7F) = true := by simpa using ha
    rw [unitsFrom.eq_def]
    simp only [h₁, if_true]
    rw [ih, List.reverse_cons, List.append_assoc]
    rfl
  | @two a b bs us ha hb _ ih =>
    have h₁ : ¬ (0x01 ≤ a && a ≤ 0x7F) = true := by
      simp only [UInt8.le_iff_toNat_le, Bool.and_eq_true, decide_eq_true_eq] at ha ⊢
      simp at ha ⊢
      omega
    have h₂ : (0xC0 ≤ a && a ≤ 0xDF) = true := by simpa using ha
    rw [unitsFrom.eq_def]
    simp only [if_neg h₁, h₂, isContinuation_iff.mpr hb, if_true]
    rw [ih, List.reverse_cons, List.append_assoc]
    rfl
  | @three a b c bs us ha hb hc _ ih =>
    have h₁ : ¬ (0x01 ≤ a && a ≤ 0x7F) = true := by
      simp only [UInt8.le_iff_toNat_le, Bool.and_eq_true, decide_eq_true_eq] at ha ⊢
      simp at ha ⊢
      omega
    have h₂ : ¬ (0xC0 ≤ a && a ≤ 0xDF) = true := by
      simp only [UInt8.le_iff_toNat_le, Bool.and_eq_true, decide_eq_true_eq] at ha ⊢
      simp at ha ⊢
      omega
    have h₃ : (0xE0 ≤ a && a ≤ 0xEF) = true := by simpa using ha
    rw [unitsFrom.eq_def]
    simp only [if_neg h₁, if_neg h₂, h₃, isContinuation_iff.mpr hb, isContinuation_iff.mpr hc,
      if_true]
    rw [ih, List.reverse_cons, List.append_assoc]
    rfl

/-- **The units of octets are those that they spell.** -/
theorem units_eq_ok_iff {bs : Bytes} {us : List UInt16} : units bs = .ok us ↔ Spells bs us := by
  constructor
  · intro h
    obtain ⟨vs, rfl, hvs⟩ := spells_of_unitsFrom h
    exact hvs
  · intro h
    exact unitsFrom_of_spells h 0 []

/-! ## 3. Texts -/

/-- By way of units, octets are decoded to the text whose units they spell. -/
theorem decodeUnits_eq_ok_iff {bs : Bytes} {s : String} :
    decodeUnits bs = .ok s ↔ Spells bs (Utf16.encode s.toList) := by
  rw [← units_eq_ok_iff, decodeUnits]
  constructor
  · intro h
    split at h
    · cases h
    · rename_i us hus
      split at h
      · rename_i cs hcs
        cases h
        rw [hus, Utf16.decode?_eq_some_iff.mp hcs, String.toList_ofList]
      · cases h
  · intro h
    simp only [h, Utf16.decode?_encode, String.ofList_toList]

/-- The characters of plain octets. -/
def plainChars (bs : Bytes) : List Char := bs.map fun b => Char.ofNat b.toNat

theorem utf8EncodeChar_plain {b : UInt8} (h : b < 0x80) :
    String.utf8EncodeChar (Char.ofNat b.toNat) = [b] := by
  have hb : b.toNat < 0x80 := by simpa [UInt8.lt_iff_toNat_lt] using h
  have hn : (Char.ofNat b.toNat).val.toNat = b.toNat := Utf16.toNat_ofNat (by omega)
  unfold String.utf8EncodeChar
  simp only [hn]
  rw [if_pos (by omega)]
  simp

theorem ofChar_plain {b : UInt8} (h : b < 0x80) :
    Utf16.ofChar (Char.ofNat b.toNat) = [b.toUInt16] := by
  have hb : b.toNat < 0x80 := by simpa [UInt8.lt_iff_toNat_lt] using h
  rw [Utf16.ofChar, Utf16.toNat_ofNat (by omega), if_pos (by omega)]
  exact congrArg (· :: []) (UInt16.toNat_inj.mp (by simp))

/-- In UTF-8, plain octets are their characters. -/
theorem flatMap_utf8EncodeChar_plainChars {bs : Bytes} (h : ∀ b ∈ bs, b ≠ 0 ∧ b < 0x80) :
    (plainChars bs).flatMap String.utf8EncodeChar = bs := by
  induction bs with
  | nil => rfl
  | cons b bs ih =>
    rw [plainChars, List.map_cons, List.flatMap_cons,
      utf8EncodeChar_plain (h b List.mem_cons_self).2]
    exact congrArg (b :: ·) (ih fun x hx => h x (List.mem_cons_of_mem _ hx))

/-- Plain octets spell the units of their characters. -/
theorem spells_plainChars {bs : Bytes} (h : ∀ b ∈ bs, b ≠ 0 ∧ b < 0x80) :
    Spells bs (Utf16.encode (plainChars bs)) := by
  induction bs with
  | nil => exact .nil
  | cons b bs ih =>
    obtain ⟨hzero, hlt⟩ := h b List.mem_cons_self
    have hb : 0x01 ≤ b ∧ b ≤ 0x7F := by
      rw [ne_eq, ← UInt8.toNat_inj] at hzero
      simp only [UInt8.le_iff_toNat_le, UInt8.lt_iff_toNat_lt] at hlt ⊢
      simp at hzero hlt ⊢
      omega
    rw [plainChars, List.map_cons, Utf16.encode_cons, ofChar_plain hlt]
    exact .one hb (ih fun x hx => h x (List.mem_cons_of_mem _ hx))

/-- The shorter way for plain octets leads to the same text. -/
theorem decodePlain_eq_decodeUnits {bs : Bytes} (h : isPlain bs = true) :
    decodePlain bs = decodeUnits bs := by
  have hbs : ∀ b ∈ bs, b ≠ 0 ∧ b < 0x80 := by simpa [isPlain] using h
  have hutf8 : bs = Utf8.encode (String.ofList (plainChars bs)) := by
    rw [Utf8.encode, String.toList_ofList, flatMap_utf8EncodeChar_plainChars hbs]
  have hspells : Spells bs (Utf16.encode (String.ofList (plainChars bs)).toList) := by
    rw [String.toList_ofList]
    exact spells_plainChars hbs
  rw [decodePlain, Utf8.decode?_eq_some_iff.mpr hutf8, decodeUnits_eq_ok_iff.mpr hspells]

/-- **Octets are decoded to a text exactly when they spell its units.** -/
theorem decode_eq_ok_iff {bs : Bytes} {s : String} :
    decode bs = .ok s ↔ Spells bs (Utf16.encode s.toList) := by
  rw [← decodeUnits_eq_ok_iff, decode]
  split
  · rename_i h
    rw [decodePlain_eq_decodeUnits h]
  · rfl

end ModifiedUtf8
end SdkConformance
