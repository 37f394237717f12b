import SdkConformance.Proofs.ClassFile.PoolReading

/-!
# Texts that are written are read back

The writer of a class file puts a text down character by character, in one of five forms that the
number of the character decides. The reader walks over 16-bit units, and takes a shorter way where
every octet is ASCII.

* `ModifiedUtf8.ofChar`, `ModifiedUtf8.written`: the octets of a character and of a text, without
  any units; `written_eq_encode` says that they are those of the units;
* `ByteReader.modifiedUtf8_of_written`: the reader answers the text and passes its octets;
* `PoolEntry.ofText`: the constant that a text is written into;
* `read_written_text`: both, wherever in the data the text and its constant stand.
-/

namespace SdkConformance

namespace ModifiedUtf8

/-! ## 1. The octets of a text -/

/-- Four, six and six bits of a number of 16 bits, in an octet each. -/
def threeOctets (n : Nat) : Bytes :=
  [UInt8.ofNat (0xE0 + n / 0x1000), UInt8.ofNat (0x80 + n / 0x40 % 0x40),
    UInt8.ofNat (0x80 + n % 0x40)]

/-- The octets of a character, by its number: one to three of them, two for U+0000, and beyond
    U+FFFF three for each of its two surrogates. -/
def ofChar (c : Char) : Bytes :=
  if c.toNat = 0 then [0xC0, 0x80]
  else if c.toNat < 0x80 then [UInt8.ofNat c.toNat]
  else if c.toNat < 0x800 then
    [UInt8.ofNat (0xC0 + c.toNat / 0x40), UInt8.ofNat (0x80 + c.toNat % 0x40)]
  else if c.toNat < 0x10000 then threeOctets c.toNat
  else
    threeOctets (0xD800 + (c.toNat - 0x10000) / 0x400) ++
      threeOctets (0xDC00 + (c.toNat - 0x10000) % 0x400)

/-- The octets of a text, character after character. -/
def written (s : String) : Bytes := s.toList.flatMap ofChar

theorem unitBytes_of_ge {n : Nat} (hlow : 0x800 ≤ n) (hhigh : n < 0x10000) :
    unitBytes (UInt16.ofNat n) = threeOctets n := by
  have hn : (UInt16.ofNat n).toNat = n := UInt16.toNat_ofNat_of_lt' hhigh
  unfold unitBytes
  rw [hn, if_neg (by omega), if_neg (by omega)]
  rfl

/-- Up to U+FFFF, a character is written as its only unit. -/
theorem ofChar_of_lt {c : Char} (h : c.toNat < 0x10000) :
    ofChar c = unitBytes (UInt16.ofNat c.toNat) := by
  have hn : (UInt16.ofNat c.toNat).toNat = c.toNat := UInt16.toNat_ofNat_of_lt' h
  unfold ofChar
  by_cases hzero : c.toNat = 0
  · rw [if_pos hzero, hzero]
    rfl
  · rw [if_neg hzero]
    by_cases hone : c.toNat < 0x80
    · rw [if_pos hone, unitBytes, hn]
      exact (if_pos ⟨Nat.pos_of_ne_zero hzero, hone⟩).symm
    · rw [if_neg hone]
      by_cases htwo : c.toNat < 0x800
      · rw [if_pos htwo, unitBytes, hn]
        exact ((if_neg fun hlt => hone hlt.2).trans (if_pos htwo)).symm
      · rw [if_neg htwo, if_pos h, unitBytes_of_ge (Nat.le_of_not_lt htwo) h]

/-- Beyond U+FFFF, a character is written as its two surrogates. -/
theorem ofChar_of_ge {c : Char} (h : 0x10000 ≤ c.toNat) :
    ofChar c = unitBytes (UInt16.ofNat (0xD800 + (c.toNat - 0x10000) / 0x400)) ++
      unitBytes (UInt16.ofNat (0xDC00 + (c.toNat - 0x10000) % 0x400)) := by
  have hvalid : c.toNat < 0x110000 := by
    have := c.valid
    simp only [UInt32.isValidChar, Nat.isValidChar] at this
    show c.val.toNat < _
    omega
  unfold ofChar
  rw [if_neg (by omega), if_neg (by omega), if_neg (by omega), if_neg (by omega),
    unitBytes_of_ge (by omega) (by omega), unitBytes_of_ge (by omega) (by omega)]

/-- The octets of a character are those of its units. -/
theorem ofChar_eq_flatMap (c : Char) : ofChar c = (Utf16.ofChar c).flatMap unitBytes := by
  by_cases h : c.toNat < 0x10000
  · have hunits : Utf16.ofChar c = [UInt16.ofNat c.toNat] := if_pos h
    rw [hunits, List.flatMap_singleton, ofChar_of_lt h]
  · have hunits : Utf16.ofChar c = [UInt16.ofNat (0xD800 + (c.toNat - 0x10000) / 0x400),
        UInt16.ofNat (0xDC00 + (c.toNat - 0x10000) % 0x400)] := if_neg h
    rw [hunits, List.flatMap_cons, List.flatMap_singleton, ofChar_of_ge (Nat.le_of_not_lt h)]

theorem written_eq_encode (s : String) : written s = encode s := by
  rw [written, encode, Utf16.encode, List.flatMap_assoc]
  exact congrArg (fun f => s.toList.flatMap f) (funext ofChar_eq_flatMap)

/-- What is written spells the units of the text. -/
theorem spells_written (s : String) : Spells (written s) (Utf16.encode s.toList) := by
  rw [written_eq_encode]
  exact decodeUnits_eq_ok_iff.mp (decodeUnits_encode s)

end ModifiedUtf8

/-! ## 2. Reading -/

namespace ByteReader

/-- A reader that accepts a format succeeds where octets of the format come next. -/
theorem Accepts.exists_ok {α : Type} {r : ByteReader α} {format : Bytes → α → Prop}
    (hr : r.Accepts format) {c : Cursor} {bs rest : Bytes} {a : α} (h : format bs a)
    (hrest : c.rest = bs ++ rest) : ∃ d, r c = .ok a d ∧ c.Passes bs d ∧ d.rest = rest := by
  obtain ⟨d, hpasses, hd⟩ := Cursor.exists_passes hrest
  exact ⟨d, (hr c a d).mpr ⟨bs, h, hpasses⟩, hpasses, hd⟩

/-- **A text is read back where it was written**, whatever comes before and behind it. -/
theorem modifiedUtf8_of_written {c : Cursor} {s : String} {rest : Bytes}
    (h : c.rest = ModifiedUtf8.written s ++ rest) :
    ∃ d, modifiedUtf8 (ModifiedUtf8.written s).length c = .ok s d ∧
      c.Passes (ModifiedUtf8.written s) d ∧ d.rest = rest :=
  (accepts_modifiedUtf8 _).exists_ok ⟨rfl, ModifiedUtf8.spells_written s⟩ h

end ByteReader

/-! ## 3. Constants -/

/-- The constant that a text is written into. -/
def PoolEntry.ofText (s : String) (h : (ModifiedUtf8.written s).length < 0x10000) : PoolEntry :=
  .text (ModifiedUtf8.written s) s h (ModifiedUtf8.spells_written s)

/-- How many slots some constants fill. -/
def PoolEntry.slotCount (es : List PoolEntry) : Nat := (es.flatMap PoolEntry.slots).length

/-- A pool that holds a text behind some constants and before others. -/
def PoolLayout.around (before after : List PoolEntry) (s : String)
    (htext : (ModifiedUtf8.written s).length < 0x10000)
    (hslots : PoolEntry.slotCount before + 1 + PoolEntry.slotCount after + 1 < 0x10000) :
    PoolLayout where
  entries := before ++ .ofText s htext :: after
  length_lt := by
    rw [List.flatMap_append, List.flatMap_cons, List.length_append, List.length_append]
    simp only [PoolEntry.slotCount] at hslots
    show _ + (1 + _) + 1 < _
    omega

namespace PoolLayout

variable {before after : List PoolEntry} {s : String}
  {htext : (ModifiedUtf8.written s).length < 0x10000}
  {hslots : PoolEntry.slotCount before + 1 + PoolEntry.slotCount after + 1 < 0x10000}

theorem octets_around : (around before after s htext hslots).octets =
    Bytes.ofNatBigEndian 2 (PoolEntry.slotCount before + 1 + PoolEntry.slotCount after + 1) ++
      (before.flatMap PoolEntry.octets ++
        ((0x01 :: Bytes.ofNatBigEndian 2 (ModifiedUtf8.written s).length ++
          ModifiedUtf8.written s) ++ after.flatMap PoolEntry.octets)) := by
  have hcount : (around before after s htext hslots).slots.length =
      PoolEntry.slotCount before + 1 + PoolEntry.slotCount after + 1 := by
    simp only [slots, around, PoolEntry.slotCount, List.length_cons, List.flatMap_append,
      List.flatMap_cons, List.length_append]
    show _ + (1 + _) + 1 = _
    omega
  have hentries : (around before after s htext hslots).entries.flatMap PoolEntry.octets =
      before.flatMap PoolEntry.octets ++
        ((PoolEntry.ofText s htext).octets ++ after.flatMap PoolEntry.octets) := by
    rw [around, List.flatMap_append, List.flatMap_cons]
  rw [octets, hcount, hentries]
  rfl

/-- The text is in the slot behind those of the constants before it. -/
theorem getElem?_slots_around : (around before after s htext hslots).slots[
    PoolEntry.slotCount before + 1]? = some (.utf8 s) := by
  rw [slots, List.getElem?_cons_succ, around, List.flatMap_append, List.flatMap_cons,
    PoolEntry.slotCount, List.getElem?_append_right (Nat.le_refl _), Nat.sub_self]
  rfl

/-- **A constant is read back with the pool that it stands in.** -/
theorem read_around {c : Cursor} {rest : Bytes}
    (h : c.rest = (around before after s htext hslots).octets ++ rest) :
    ∃ pool d, ConstantPool.read c = .ok pool d ∧
      pool.utf8 (UInt16.ofNat (PoolEntry.slotCount before + 1)) = .ok s ∧ d.rest = rest := by
  obtain ⟨d, hread, -, hd⟩ := ConstantPool.accepts_read.exists_ok
    ⟨around before after s htext hslots, rfl, rfl⟩ h
    (a := ⟨(around before after s htext hslots).slots.toArray⟩)
  have hindex : (UInt16.ofNat (PoolEntry.slotCount before + 1)).toNat =
      PoolEntry.slotCount before + 1 := by
    have hlt : PoolEntry.slotCount before + 1 < 0x10000 := by omega
    exact UInt16.toNat_ofNat_of_lt' hlt
  have hslot : ConstantPool.get? ⟨(around before after s htext hslots).slots.toArray⟩
      (UInt16.ofNat (PoolEntry.slotCount before + 1)) = some (.utf8 s) := by
    rw [ConstantPool.get?, hindex, List.getElem?_toArray, getElem?_slots_around]
  refine ⟨_, d, hread, ?_, hd⟩
  rw [ConstantPool.utf8, hslot]

end PoolLayout

/-! ## 4. Any text, anywhere -/

/-- **What was written is read back.** A reader of as many octets as a text was written in answers
    the text and stands behind them, whatever the data holds besides. So does a pool with the text
    in a constant, behind any constants and before any others. -/
theorem read_written_text (s : String) :
    (∀ (c : Cursor) (rest : Bytes), c.rest = ModifiedUtf8.written s ++ rest →
      ∃ d, ByteReader.modifiedUtf8 (ModifiedUtf8.written s).length c = .ok s d ∧
        d.data = c.data ∧ d.pos = c.pos + (ModifiedUtf8.written s).length ∧ d.rest = rest) ∧
    (∀ (before after : List PoolEntry) (c : Cursor) (rest : Bytes),
      (ModifiedUtf8.written s).length ≤ 65535 →
      PoolEntry.slotCount before + 1 + PoolEntry.slotCount after + 1 ≤ 65535 →
      c.rest =
        Bytes.ofNatBigEndian 2 (PoolEntry.slotCount before + 1 + PoolEntry.slotCount after + 1) ++
          (before.flatMap PoolEntry.octets ++
            ((0x01 :: Bytes.ofNatBigEndian 2 (ModifiedUtf8.written s).length ++
              ModifiedUtf8.written s) ++ after.flatMap PoolEntry.octets)) ++ rest →
      ∃ pool d, ConstantPool.read c = .ok pool d ∧
        pool.utf8 (UInt16.ofNat (PoolEntry.slotCount before + 1)) = .ok s ∧ d.rest = rest) := by
  constructor
  · intro c rest hrest
    obtain ⟨d, hread, ⟨_, hdata, hpos⟩, hd⟩ := ByteReader.modifiedUtf8_of_written hrest
    exact ⟨d, hread, hdata, hpos, hd⟩
  · intro before after c rest htext hslots hrest
    have htext' : (ModifiedUtf8.written s).length < 0x10000 := Nat.lt_succ_of_le htext
    have hslots' : PoolEntry.slotCount before + 1 + PoolEntry.slotCount after + 1 < 0x10000 :=
      Nat.lt_succ_of_le hslots
    have hoctets : (PoolLayout.around before after s htext' hslots').octets = _ :=
      PoolLayout.octets_around
    rw [← hoctets] at hrest
    exact PoolLayout.read_around hrest

/-- A text with a character of each form. -/
def fiveForms : String := String.ofList ['\x00', 'a', 'é', '中', '😀']

/-- It is read behind an octet and before another one, and from a pool behind a constant that takes
    two slots. -/
theorem read_fiveForms :
    ModifiedUtf8.written fiveForms =
      [0xC0, 0x80, 0x61, 0xC3, 0xA9, 0xE4, 0xB8, 0xAD, 0xED, 0xA0, 0xBD, 0xED, 0xB8, 0x80] ∧
    (∃ c d : Cursor, c.data = 0x2A :: ModifiedUtf8.written fiveForms ++ [0xFF] ∧ c.pos = 1 ∧
      ByteReader.modifiedUtf8 14 c = .ok fiveForms d ∧ d.pos = 15 ∧ d.rest = [0xFF]) ∧
    ∃ pool d, ConstantPool.read (.ofBytes ([0x00, 0x04, 0x05, 0, 0, 0, 0, 0, 0, 0, 0, 0x01, 0x00,
      0x0E] ++ ModifiedUtf8.written fiveForms ++ [0xFF])) = .ok pool d ∧
      pool.utf8 3 = .ok fiveForms ∧ d.rest = [0xFF] := by
  have hwritten : ModifiedUtf8.written fiveForms =
      [0xC0, 0x80, 0x61, 0xC3, 0xA9, 0xE4, 0xB8, 0xAD, 0xED, 0xA0, 0xBD, 0xED, 0xB8, 0x80] := by
    rw [ModifiedUtf8.written, fiveForms, String.toList_ofList]
    decide
  obtain ⟨hread, hpool⟩ := read_written_text fiveForms
  refine ⟨hwritten, ?_, ?_⟩
  · obtain ⟨d, hd, -, hpos, hrest⟩ := hread
      ⟨0x2A :: ModifiedUtf8.written fiveForms ++ [0xFF], 1,
        ModifiedUtf8.written fiveForms ++ [0xFF], rfl, by simp⟩ [0xFF] rfl
    rw [hwritten] at hd hpos
    exact ⟨_, d, rfl, rfl, hd, hpos, hrest⟩
  · refine hpool [.wide .long (List.replicate 8 0) rfl] [] _ [0xFF] ?_ (by decide) ?_
    · rw [hwritten]
      decide
    · rw [Cursor.rest_ofBytes, hwritten]
      rfl

end SdkConformance
