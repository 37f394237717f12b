import SdkConformance.Proofs.ClassFile.Truncation

/-!
# Texts by the form of their octets

Whether octets are read as a text is decided in two stages: they must be units, each in one of three
forms, and the numbers of these units must be UTF-16 with no surrogate left alone. Both conditions
are stated here on the octets and the numbers, without any reading.

* `Utf16.Paired`: every surrogate belongs to a pair; `Utf16.Represents`: the characters of numbers;
  `exists_represents_iff_paired` says that numbers have a text exactly if they are paired;
* `ModifiedUtf8.UnitForm`: a unit as it is written; `decode_eq_ok_iff_forms` and
  `exists_decode_iff_paired` say which octets have a text, and which one;
* `ByteReader.modifiedUtf8_of_le`, `modifiedUtf8_of_lt`: what a reader of texts does at a cursor;
* `modifiedUtf8_iff_forms_paired`: all of it for any data, place and length.
-/

namespace SdkConformance

namespace Utf16

/-! ## 1. Surrogates and their pairs -/

/-- The number of a surrogate that comes first in a pair. -/
def High (n : Nat) : Prop := 0xD800 ≤ n ∧ n < 0xDC00

/-- The number of a surrogate that comes second in a pair. -/
def Low (n : Nat) : Prop := 0xDC00 ≤ n ∧ n < 0xE000

/-- There is a high surrogate at a place. -/
def HighAt (ns : List Nat) (i : Nat) : Prop := ∃ n, ns[i]? = some n ∧ High n

/-- There is a low surrogate at a place. -/
def LowAt (ns : List Nat) (i : Nat) : Prop := ∃ n, ns[i]? = some n ∧ Low n

/-- Every surrogate belongs to a pair of a high one and a low one right behind it. -/
def Paired (ns : List Nat) : Prop :=
  ∀ i, (HighAt ns i → LowAt ns (i + 1)) ∧ (LowAt ns i → ∃ j, i = j + 1 ∧ HighAt ns j)

/-- Numbers of 16 bits are those of characters: one that is no surrogate is the number of its
    character, and two surrogates carry ten bits each of what their character exceeds U+FFFF by. -/
inductive Represents : List Nat → List Char → Prop
  | nil : Represents [] []
  | single {c : Char} {ns cs} (hc : c.toNat < 0x10000) (rest : Represents ns cs) :
      Represents (c.toNat :: ns) (c :: cs)
  | pair {c : Char} {high low : Nat} {ns cs} (hhigh : High high) (hlow : Low low)
      (hc : c.toNat = 0x10000 + (high - 0xD800) * 0x400 + (low - 0xDC00))
      (rest : Represents ns cs) : Represents (high :: low :: ns) (c :: cs)

/-- The number of a character is no surrogate. -/
theorem not_high_toNat (c : Char) : ¬ High c.toNat ∧ ¬ Low c.toNat := by
  have hvalid : c.toNat < 0xD800 ∨ 0xDFFF < c.toNat ∧ c.toNat < 0x110000 := by
    have := c.valid
    simpa [UInt32.isValidChar, Nat.isValidChar] using this
  unfold High Low
  omega

section Places

variable {n : Nat} {ns : List Nat}

theorem highAt_zero_iff : HighAt (n :: ns) 0 ↔ High n := by
  simp [HighAt]

theorem lowAt_zero_iff : LowAt (n :: ns) 0 ↔ Low n := by
  simp [LowAt]

theorem highAt_succ_iff {i : Nat} : HighAt (n :: ns) (i + 1) ↔ HighAt ns i := Iff.rfl

theorem lowAt_succ_iff {i : Nat} : LowAt (n :: ns) (i + 1) ↔ LowAt ns i := Iff.rfl

theorem paired_nil : Paired [] := by
  intro i
  constructor
  · intro h
    obtain ⟨_, ⟨⟩, _⟩ := h
  · intro h
    obtain ⟨_, ⟨⟩, _⟩ := h

/-- A number that is no surrogate has no part in any pair. -/
theorem paired_cons_iff (hhigh : ¬ High n) (hlow : ¬ Low n) : Paired (n :: ns) ↔ Paired ns := by
  constructor
  · intro h i
    refine ⟨(h (i + 1)).1, fun hi => ?_⟩
    obtain ⟨j, hj, hbefore⟩ := (h (i + 1)).2 hi
    cases j with
    | zero => exact absurd (highAt_zero_iff.mp hbefore) hhigh
    | succ j => exact ⟨j, Nat.succ.inj hj, hbefore⟩
  · intro h i
    cases i with
    | zero =>
      exact ⟨fun hi => absurd (highAt_zero_iff.mp hi) hhigh,
        fun hi => absurd (lowAt_zero_iff.mp hi) hlow⟩
    | succ i =>
      refine ⟨(h i).1, fun hi => ?_⟩
      obtain ⟨j, rfl, hbefore⟩ := (h i).2 hi
      exact ⟨j + 1, rfl, hbefore⟩

/-- A pair in front is complete in itself. -/
theorem paired_cons_cons_iff {high low : Nat} (hhigh : High high) (hlow : Low low) :
    Paired (high :: low :: ns) ↔ Paired ns := by
  have hnot : ¬ High low ∧ ¬ Low high := by
    unfold High Low at *
    omega
  constructor
  · intro h i
    refine ⟨(h (i + 2)).1, fun hi => ?_⟩
    obtain ⟨j, hj, hbefore⟩ := (h (i + 2)).2 hi
    rcases j with _ | _ | j
    · omega
    · exact absurd (highAt_zero_iff.mp (highAt_succ_iff.mp hbefore)) hnot.1
    · exact ⟨j, by omega, hbefore⟩
  · intro h i
    rcases i with _ | _ | i
    · exact ⟨fun _ => lowAt_succ_iff.mpr (lowAt_zero_iff.mpr hlow),
        fun hi => absurd (lowAt_zero_iff.mp hi) hnot.2⟩
    · exact ⟨fun hi => absurd (highAt_zero_iff.mp (highAt_succ_iff.mp hi)) hnot.1,
        fun _ => ⟨0, rfl, highAt_zero_iff.mpr hhigh⟩⟩
    · refine ⟨(h i).1, fun hi => ?_⟩
      obtain ⟨j, rfl, hbefore⟩ := (h i).2 hi
      exact ⟨j + 2, rfl, hbefore⟩

/-- Behind a high surrogate in front there is its low one. -/
theorem exists_low_of_paired (h : Paired (n :: ns)) (hn : High n) :
    ∃ low rest, ns = low :: rest ∧ Low low := by
  obtain ⟨low, hget, hlow⟩ := (h 0).1 (highAt_zero_iff.mpr hn)
  cases ns with
  | nil => cases hget
  | cons m rest =>
    obtain rfl : m = low := Option.some.inj hget
    exact ⟨m, rest, rfl, hlow⟩

/-- A low surrogate does not come first. -/
theorem not_low_of_paired (h : Paired (n :: ns)) : ¬ Low n := by
  intro hn
  obtain ⟨j, hj, _⟩ := (h 0).2 (lowAt_zero_iff.mpr hn)
  cases hj

end Places

theorem paired_of_represents {ns : List Nat} {cs : List Char} (h : Represents ns cs) :
    Paired ns := by
  induction h with
  | nil => exact paired_nil
  | @single c _ _ _ _ ih => exact (paired_cons_iff (not_high_toNat c).1 (not_high_toNat c).2).mpr ih
  | pair hhigh hlow _ _ ih => exact (paired_cons_cons_iff hhigh hlow).mpr ih

/-- Paired numbers have a text; it is found from the front, character by character. -/
theorem exists_represents_of_paired {ns : List Nat} (hlt : ∀ n ∈ ns, n < 0x10000)
    (h : Paired ns) : ∃ cs, Represents ns cs := by
  induction hlen : ns.length using Nat.strongRecOn generalizing ns with
  | ind length ih =>
    subst hlen
    cases ns with
    | nil => exact ⟨[], .nil⟩
    | cons n rest =>
      have hn : n < 0x10000 := hlt n List.mem_cons_self
      have hrest : ∀ m ∈ rest, m < 0x10000 := fun m hm => hlt m (List.mem_cons_of_mem _ hm)
      have hnotlow := not_low_of_paired h
      by_cases hhigh : High n
      · obtain ⟨low, later, rfl, hlow⟩ := exists_low_of_paired h hhigh
        have hlater : Paired later := (paired_cons_cons_iff hhigh hlow).mp h
        obtain ⟨cs, hcs⟩ := ih later.length (by simp only [List.length_cons]; omega)
          (fun m hm => hrest m (List.mem_cons_of_mem _ hm)) hlater rfl
        refine ⟨Char.ofNat (0x10000 + (n - 0xD800) * 0x400 + (low - 0xDC00)) :: cs,
          .pair hhigh hlow (toNat_ofNat ?_) hcs⟩
        unfold High Low at *
        omega
      · have hpaired : Paired rest := (paired_cons_iff hhigh hnotlow).mp h
        obtain ⟨cs, hcs⟩ := ih rest.length (Nat.lt_succ_self _) hrest hpaired rfl
        have hc : (Char.ofNat n).toNat = n := by
          apply toNat_ofNat
          unfold High Low at *
          omega
        have hsingle := Represents.single (c := Char.ofNat n) (by rw [hc]; exact hn) hcs
        rw [hc] at hsingle
        exact ⟨_, hsingle⟩

/-- **Numbers of 16 bits have a text exactly if every surrogate belongs to a pair.** -/
theorem exists_represents_iff_paired {ns : List Nat} (hlt : ∀ n ∈ ns, n < 0x10000) :
    (∃ cs, Represents ns cs) ↔ Paired ns := by
  constructor
  · intro h
    obtain ⟨cs, hcs⟩ := h
    exact paired_of_represents hcs
  · intro h
    exact exists_represents_of_paired hlt h

/-- The units of a character, as numbers. -/
theorem map_toNat_ofChar_of_pair {c : Char} {high low : Nat} (hhigh : High high) (hlow : Low low)
    (hc : c.toNat = 0x10000 + (high - 0xD800) * 0x400 + (low - 0xDC00)) :
    (ofChar c).map UInt16.toNat = [high, low] := by
  unfold High Low at *
  have hge : ¬ c.toNat < 0x10000 := by omega
  have hfirst : 0xD800 + (c.toNat - 0x10000) / 0x400 = high := by omega
  have hsecond : 0xDC00 + (c.toNat - 0x10000) % 0x400 = low := by omega
  have hhighlt : high < UInt16.size := by
    show high < 0x10000
    omega
  have hlowlt : low < UInt16.size := by
    show low < 0x10000
    omega
  have hunits : ofChar c = [UInt16.ofNat high, UInt16.ofNat low] := by
    rw [← hfirst, ← hsecond]
    exact if_neg hge
  rw [hunits, List.map_cons, List.map_singleton, UInt16.toNat_ofNat_of_lt' hhighlt,
    UInt16.toNat_ofNat_of_lt' hlowlt]

/-- Numbers that are those of characters are the units of these characters. -/
theorem eq_map_toNat_encode_of_represents {ns : List Nat} {cs : List Char}
    (h : Represents ns cs) : ns = (encode cs).map UInt16.toNat := by
  induction h with
  | nil => rfl
  | @single c ns cs hc _ ih =>
    have hunit : (UInt16.ofNat c.toNat).toNat = c.toNat := UInt16.toNat_ofNat_of_lt' hc
    rw [encode_cons, ofChar, if_pos hc, List.map_append, ← ih, List.map_singleton, hunit]
    rfl
  | pair hhigh hlow hc _ ih =>
    rw [encode_cons, List.map_append, ← ih, map_toNat_ofChar_of_pair hhigh hlow hc]
    rfl

/-- The units of characters represent them. -/
theorem represents_encode (cs : List Char) : Represents ((encode cs).map UInt16.toNat) cs := by
  induction cs with
  | nil => exact .nil
  | cons c cs ih =>
    rw [encode_cons, List.map_append]
    by_cases hc : c.toNat < 0x10000
    · have hunit : (UInt16.ofNat c.toNat).toNat = c.toNat := UInt16.toNat_ofNat_of_lt' hc
      rw [ofChar, if_pos hc, List.map_singleton, hunit]
      exact .single hc ih
    · have hvalid : c.toNat < 0x110000 := by
        have := c.valid
        simp only [UInt32.isValidChar, Nat.isValidChar] at this
        show c.val.toNat < _
        omega
      have hhigh : High (0xD800 + (c.toNat - 0x10000) / 0x400) := by
        unfold High
        omega
      have hlow : Low (0xDC00 + (c.toNat - 0x10000) % 0x400) := by
        unfold Low
        omega
      have hnumber : c.toNat = 0x10000 + (0xD800 + (c.toNat - 0x10000) / 0x400 - 0xD800) * 0x400 +
          (0xDC00 + (c.toNat - 0x10000) % 0x400 - 0xDC00) := by
        omega
      rw [map_toNat_ofChar_of_pair hhigh hlow hnumber]
      exact .pair hhigh hlow hnumber ih

end Utf16

namespace ModifiedUtf8

/-! ## 2. Units as they are written -/

/-- A unit in one of its three forms. -/
inductive UnitForm where
  | one (a : UInt8) (ha : 0x01 ≤ a ∧ a ≤ 0x7F)
  | two (a b : UInt8) (ha : 0xC0 ≤ a ∧ a ≤ 0xDF) (hb : 0x80 ≤ b ∧ b ≤ 0xBF)
  | three (a b c : UInt8) (ha : 0xE0 ≤ a ∧ a ≤ 0xEF) (hb : 0x80 ≤ b ∧ b ≤ 0xBF)
      (hc : 0x80 ≤ c ∧ c ≤ 0xBF)

namespace UnitForm

/-- What the unit is written as. -/
def octets : UnitForm → Bytes
  | .one a _ => [a]
  | .two a b _ _ => [a, b]
  | .three a b c _ _ _ => [a, b, c]

/-- The number of the unit: seven bits, five and six, or four, six and six. -/
def number : UnitForm → Nat
  | .one a _ => a.toNat % 0x80
  | .two a b _ _ => a.toNat % 0x20 * 0x40 + b.toNat % 0x40
  | .three a b c _ _ _ => a.toNat % 0x10 * 0x1000 + b.toNat % 0x40 * 0x40 + c.toNat % 0x40

theorem number_lt (f : UnitForm) : f.number < 0x10000 := by
  cases f <;> simp only [number] <;> omega

end UnitForm

theorem toNat_unit₂ (a b : UInt8) :
    (unit₂ a b).toNat = a.toNat % 0x20 * 0x40 + b.toNat % 0x40 := by
  refine UInt16.toNat_ofNat_of_lt' ?_
  show _ < 0x10000
  omega

theorem toNat_unit₃ (a b c : UInt8) : (unit₃ a b c).toNat =
    a.toNat % 0x10 * 0x1000 + b.toNat % 0x40 * 0x40 + c.toNat % 0x40 := by
  refine UInt16.toNat_ofNat_of_lt' ?_
  show _ < 0x10000
  omega

/-- A unit of seven bits is its octet. -/
theorem toNat_toUInt16_of_le {a : UInt8} (ha : a ≤ 0x7F) :
    a.toUInt16.toNat = a.toNat % 0x80 := by
  have hle : a.toNat ≤ 0x7F := UInt8.le_iff_toNat_le.mp ha
  rw [UInt8.toNat_toUInt16, Nat.mod_eq_of_lt (Nat.lt_succ_of_le hle)]

/-- **Octets spell units exactly if they are forms** with the numbers of these units. -/
theorem spells_iff_forms {bs : Bytes} {us : List UInt16} :
    Spells bs us ↔ ∃ fs : List UnitForm, bs = fs.flatMap UnitForm.octets ∧
      us.map UInt16.toNat = fs.map UnitForm.number := by
  constructor
  · intro h
    induction h with
    | nil => exact ⟨[], rfl, rfl⟩
    | @one a _ _ ha _ ih =>
      obtain ⟨fs, rfl, hnumbers⟩ := ih
      refine ⟨.one a ha :: fs, rfl, ?_⟩
      rw [List.map_cons, List.map_cons, hnumbers, toNat_toUInt16_of_le ha.2]
      rfl
    | @two a b _ _ ha hb _ ih =>
      obtain ⟨fs, rfl, hnumbers⟩ := ih
      refine ⟨.two a b ha hb :: fs, rfl, ?_⟩
      rw [List.map_cons, List.map_cons, hnumbers, toNat_unit₂]
      rfl
    | @three a b c _ _ ha hb hc _ ih =>
      obtain ⟨fs, rfl, hnumbers⟩ := ih
      refine ⟨.three a b c ha hb hc :: fs, rfl, ?_⟩
      rw [List.map_cons, List.map_cons, hnumbers, toNat_unit₃]
      rfl
  · intro h
    obtain ⟨fs, rfl, hnumbers⟩ := h
    induction fs generalizing us with
    | nil =>
      rw [List.map_eq_nil_iff.mp hnumbers]
      exact .nil
    | cons f fs ih =>
      obtain ⟨u, vs, rfl, hu, hvs⟩ := List.map_eq_cons_iff.mp hnumbers
      have hrest := ih hvs
      cases f with
      | one a ha =>
        obtain rfl : u = a.toUInt16 :=
          UInt16.toNat_inj.mp (hu.trans (toNat_toUInt16_of_le ha.2).symm)
        exact .one ha hrest
      | two a b ha hb =>
        obtain rfl : u = unit₂ a b := UInt16.toNat_inj.mp (hu.trans (toNat_unit₂ a b).symm)
        exact .two ha hb hrest
      | three a b c ha hb hc =>
        obtain rfl : u = unit₃ a b c := UInt16.toNat_inj.mp (hu.trans (toNat_unit₃ a b c).symm)
        exact .three ha hb hc hrest

/-! ## 3. Texts -/

theorem decodeUnits_eq_ok_iff_forms {bs : Bytes} {s : String} :
    decodeUnits bs = .ok s ↔ ∃ fs : List UnitForm, bs = fs.flatMap UnitForm.octets ∧
      Utf16.Represents (fs.map UnitForm.number) s.toList := by
  rw [decodeUnits_eq_ok_iff, spells_iff_forms]
  refine exists_congr fun fs => and_congr_right fun _ => ?_
  constructor
  · intro h
    rw [← h]
    exact Utf16.represents_encode s.toList
  · intro h
    exact (Utf16.eq_map_toNat_encode_of_represents h).symm

/-- Octets are decoded the same way, be they plain or not. -/
theorem decode_eq_decodeUnits (bs : Bytes) : decode bs = decodeUnits bs := by
  rw [decode]
  by_cases h : isPlain bs = true
  · rw [if_pos h, decodePlain_eq_decodeUnits h]
  · rw [if_neg h]

/-- **Octets have a text** exactly if they are forms of units with the numbers of its characters. -/
theorem decode_eq_ok_iff_forms {bs : Bytes} {s : String} :
    decode bs = .ok s ↔ ∃ fs : List UnitForm, bs = fs.flatMap UnitForm.octets ∧
      Utf16.Represents (fs.map UnitForm.number) s.toList := by
  rw [decode_eq_decodeUnits, decodeUnits_eq_ok_iff_forms]

/-- **Octets have some text** exactly if they are forms of units whose surrogates are paired. -/
theorem exists_decode_iff_paired {bs : Bytes} :
    (∃ s, decode bs = .ok s) ↔ ∃ fs : List UnitForm, bs = fs.flatMap UnitForm.octets ∧
      Utf16.Paired (fs.map UnitForm.number) := by
  have hlt : ∀ fs : List UnitForm, ∀ n ∈ fs.map UnitForm.number, n < 0x10000 := by
    intro fs n hn
    obtain ⟨f, -, rfl⟩ := List.mem_map.mp hn
    exact f.number_lt
  constructor
  · intro h
    obtain ⟨s, hs⟩ := h
    obtain ⟨fs, hbs, hrepresents⟩ := decode_eq_ok_iff_forms.mp hs
    exact ⟨fs, hbs, Utf16.paired_of_represents hrepresents⟩
  · intro h
    obtain ⟨fs, hbs, hpaired⟩ := h
    obtain ⟨cs, hcs⟩ := (Utf16.exists_represents_iff_paired (hlt fs)).mpr hpaired
    refine ⟨String.ofList cs, decode_eq_ok_iff_forms.mpr ⟨fs, hbs, ?_⟩⟩
    rw [String.toList_ofList]
    exact hcs

/-- Plain octets always have a text, on the shorter way and on the longer one. -/
theorem exists_decodePlain {bs : Bytes} (h : ∀ b ∈ bs, b ≠ 0 ∧ b < 0x80) :
    ∃ s, decodePlain bs = .ok s ∧ decodeUnits bs = .ok s := by
  have hplain : isPlain bs = true := by simpa [isPlain] using h
  have hspells : Spells bs (Utf16.encode (String.ofList (plainChars bs)).toList) := by
    rw [String.toList_ofList]
    exact spells_plainChars h
  have hunits := decodeUnits_eq_ok_iff.mpr hspells
  exact ⟨_, (decodePlain_eq_decodeUnits hplain).trans hunits, hunits⟩

end ModifiedUtf8

/-! ## 4. Reading at a cursor -/

/-- The next octets behind the cursor, at most so many. -/
def Cursor.ahead (c : Cursor) (n : Nat) : Bytes := (c.data.drop c.pos).take n

namespace ByteReader

/-- Where there are enough octets, they are passed whether they have a text or not. -/
theorem modifiedUtf8_of_le {n : Nat} {c : Cursor} (h : n ≤ c.remaining) :
    ∃ d : Cursor, d.data = c.data ∧ d.pos = c.pos + n ∧
      modifiedUtf8 n c = match ModifiedUtf8.decode (c.ahead n) with
        | .ok s => .ok s d
        | .error fault => .error (.malformed (.undecodable fault)) d := by
  obtain ⟨d, hd, hdata, hpos⟩ := octets_of_le h
  refine ⟨d, hdata, hpos, ?_⟩
  show EStateM.bind (octets n) _ c = _
  rw [EStateM.bind, hd, Cursor.ahead, c.drop_pos]
  simp only
  cases ModifiedUtf8.decode (c.rest.take n) <;> rfl

theorem modifiedUtf8_of_lt {n : Nat} {c : Cursor} (h : c.remaining < n) :
    modifiedUtf8 n c = .error .outOfBounds c := by
  show EStateM.bind (octets n) _ c = _
  rw [EStateM.bind, octets_of_lt h]

end ByteReader

open ModifiedUtf8 ByteReader in
/-- **Reading a text of so many octets**, anywhere in any data. If there are as many, the reader
    ends right behind them. It answers a text exactly if they are units in the three forms whose
    surrogates are all in pairs, and then the one that these units represent; otherwise they are
    reported as damaged. Plain octets are never damaged, and have the text that they have as units.
    If there are fewer octets, the data is too short and nothing is passed. -/
theorem modifiedUtf8_iff_forms_paired (n : Nat) (c : Cursor) :
    (n ≤ c.remaining → ∃ d : Cursor, d.data = c.data ∧ d.pos = c.pos + n ∧
      ((∃ s, modifiedUtf8 n c = .ok s d) ↔
        ∃ fs : List UnitForm, c.ahead n = fs.flatMap UnitForm.octets ∧
          Utf16.Paired (fs.map UnitForm.number)) ∧
      (∀ s, modifiedUtf8 n c = .ok s d ↔
        ∃ fs : List UnitForm, c.ahead n = fs.flatMap UnitForm.octets ∧
          Utf16.Represents (fs.map UnitForm.number) s.toList) ∧
      ((¬ ∃ fs : List UnitForm, c.ahead n = fs.flatMap UnitForm.octets ∧
          Utf16.Paired (fs.map UnitForm.number)) →
        ∃ fault, modifiedUtf8 n c = .error (.malformed (.undecodable fault)) d) ∧
      ((∀ b ∈ c.ahead n, b ≠ 0 ∧ b < 0x80) →
        ∃ s, decodePlain (c.ahead n) = .ok s ∧ decodeUnits (c.ahead n) = .ok s ∧
          modifiedUtf8 n c = .ok s d)) ∧
    (c.remaining < n → modifiedUtf8 n c = .error .outOfBounds c) := by
  refine ⟨fun h => ?_, modifiedUtf8_of_lt⟩
  obtain ⟨d, hdata, hpos, hread⟩ := modifiedUtf8_of_le h
  have hok : ∀ s, modifiedUtf8 n c = .ok s d ↔ decode (c.ahead n) = .ok s := by
    intro s
    rw [hread]
    cases decode (c.ahead n) with
    | ok t => simp only [EStateM.Result.ok.injEq, and_true, Except.ok.injEq]
    | error fault =>
      constructor
      · intro hx
        cases hx
      · intro hx
        cases hx
  refine ⟨d, hdata, hpos, ?_, fun s => ?_, fun hnot => ?_, fun hplain => ?_⟩
  · rw [← exists_decode_iff_paired]
    exact exists_congr hok
  · rw [hok, decode_eq_ok_iff_forms]
  · rw [← exists_decode_iff_paired] at hnot
    cases hdecode : decode (c.ahead n) with
    | ok s => exact absurd ⟨s, hdecode⟩ hnot
    | error fault =>
      rw [hread, hdecode]
      exact ⟨fault, rfl⟩
  · obtain ⟨s, hshort, hunits⟩ := exists_decodePlain hplain
    refine ⟨s, hshort, hunits, (hok s).mpr ?_⟩
    rw [decode_eq_decodeUnits, hunits]

/-- A letter, a character beyond U+FFFF and U+0000, in four units of three forms. -/
def fourUnits : List ModifiedUtf8.UnitForm :=
  [.one 0x61 (by decide), .three 0xED 0xA0 0xBD (by decide) (by decide) (by decide),
    .three 0xED 0xB8 0x80 (by decide) (by decide) (by decide),
    .two 0xC0 0x80 (by decide) (by decide)]

/-- Four units behind an octet are read as three characters; the first half of a pair alone is
    damaged and passed; plain octets are read; four octets are too many for three. -/
theorem modifiedUtf8_fourUnits_and_lone :
    (∃ c d : Cursor, c.data = 0x2A :: fourUnits.flatMap ModifiedUtf8.UnitForm.octets ∧
      c.pos = 1 ∧ ByteReader.modifiedUtf8 9 c = .ok (String.ofList ['a', '😀', '\x00']) d ∧
      d.pos = 10) ∧
    (∃ (d : Cursor) (fault : ModifiedUtf8.Fault),
      ByteReader.modifiedUtf8 3 (.ofBytes [0xED, 0xA0, 0xBD]) =
        .error (.malformed (.undecodable fault)) d ∧ d.pos = 3) ∧
    (∃ (d : Cursor) (s : String),
      ByteReader.modifiedUtf8 2 (.ofBytes [0x61, 0x62]) = .ok s d ∧ d.pos = 2) ∧
    ByteReader.modifiedUtf8 4 (.ofBytes [0x61, 0x62, 0x63]) =
      .error .outOfBounds (.ofBytes [0x61, 0x62, 0x63]) := by
  refine ⟨?_, ?_, ?_, ?_⟩
  · obtain ⟨hread, -⟩ := modifiedUtf8_iff_forms_paired 9
      ⟨0x2A :: fourUnits.flatMap ModifiedUtf8.UnitForm.octets, 1,
        fourUnits.flatMap ModifiedUtf8.UnitForm.octets, rfl, by decide⟩
    obtain ⟨d, -, hpos, -, htext, -⟩ := hread (by decide)
    refine ⟨_, d, rfl, rfl, (htext _).mpr ⟨fourUnits, by decide, ?_⟩, hpos⟩
    rw [String.toList_ofList]
    have hlast : Utf16.Represents [0x00] ['\x00'] := .single (c := '\x00') (by decide) .nil
    have hpair : Utf16.Represents [0xD83D, 0xDE00, 0x00] ['😀', '\x00'] :=
      .pair (by unfold Utf16.High; decide) (by unfold Utf16.Low; decide) (by decide) hlast
    exact .single (c := 'a') (by decide) hpair
  · obtain ⟨hread, -⟩ := modifiedUtf8_iff_forms_paired 3 (.ofBytes [0xED, 0xA0, 0xBD])
    obtain ⟨d, -, hpos, -, -, hdamaged, -⟩ := hread (by decide)
    obtain ⟨fault, hfault⟩ := hdamaged fun hforms => by
      obtain ⟨s, hs⟩ := ModifiedUtf8.exists_decode_iff_paired.mpr hforms
      have hlone : ModifiedUtf8.decode ((Cursor.ofBytes [0xED, 0xA0, 0xBD]).ahead 3) =
          .error .surrogates := rfl
      rw [hlone] at hs
      cases hs
    exact ⟨d, fault, hfault, hpos⟩
  · obtain ⟨hread, -⟩ := modifiedUtf8_iff_forms_paired 2 (.ofBytes [0x61, 0x62])
    obtain ⟨d, -, hpos, -, -, -, hplain⟩ := hread (by decide)
    have hahead : (Cursor.ofBytes [0x61, 0x62]).ahead 2 = [0x61, 0x62] := rfl
    rw [hahead] at hplain
    obtain ⟨s, -, -, hs⟩ := hplain (by simp)
    exact ⟨d, s, hs, hpos⟩
  · exact (modifiedUtf8_iff_forms_paired 4 (.ofBytes [0x61, 0x62, 0x63])).2 (by decide)

end SdkConformance
