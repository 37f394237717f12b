import SdkConformance.Proofs.ClassFile.Formats

/-!
# The grammar of descriptors

A text is a descriptor exactly if it is the one that a well-formed type is written as. Class names
may hold any character but their terminator, so the texts are followed octet by octet.

* `Descriptor.Reads`: a step succeeds exactly where the text of a well-formed value comes next, and
  passes that text; `reads_fieldType`, `params_eq_ok_iff` and `reads_returnType` for the parts;
* `ne_missing` of each step: the fault that is no damage is that of an empty method descriptor;
* `parse_eq_ok_iff_eq_descriptor`: whole descriptors;
* `parse_iff_descriptor_and_toError`: the same, and what every other text is reported as.
-/

namespace SdkConformance

/-! ## 1. Octets of texts -/

namespace Cursor

theorem next?_eq_some_iff_passes {c d : Cursor} {b : UInt8} :
    c.next? = some (b, d) ↔ c.Passes [b] d :=
  c.next?_eq_some_iff d b

theorem advance?_of_passes {c d : Cursor} {bs : Bytes} (h : c.Passes bs d) :
    c.advance? bs.length = some d := by
  refine (c.advance?_eq_some_iff d _).mpr ⟨?_, h.2⟩
  rw [← c.length_rest, h.1, List.length_append]
  exact Nat.le_add_right _ _

/-- Behind the octets at the front that satisfy a condition. -/
theorem exists_passes_takeWhile (c : Cursor) (p : UInt8 → Bool) :
    ∃ d, c.Passes (c.rest.takeWhile p) d ∧ ∀ b ∈ d.rest.head?, p b = false := by
  obtain ⟨d, hd, hrest⟩ := exists_passes (c := c) (List.takeWhile_append_dropWhile (p := p)).symm
  refine ⟨d, hd, fun b hb => ?_⟩
  have hhead := List.head?_dropWhile_not p c.rest
  rw [← hrest, hb] at hhead
  exact hhead

end Cursor

namespace Descriptor

theorem toNat_octet {c : Char} (h : c.toNat < 128) : (octet c).toNat = c.toNat := by
  rw [octet, UInt8.toNat_ofNat', Nat.mod_eq_of_lt (Nat.lt_trans h (by decide))]

/-- An ASCII character is written as its octet. -/
theorem utf8EncodeChar_of_lt {c : Char} (h : c.toNat < 128) :
    String.utf8EncodeChar c = [octet c] := by
  have hle : c.val.toNat ≤ 127 := Nat.le_of_lt_succ h
  unfold String.utf8EncodeChar
  exact if_pos hle

/-- No other character has an octet of an ASCII character. -/
theorem le_of_mem_utf8EncodeChar {c : Char} {b : UInt8} (h : 128 ≤ c.toNat)
    (hb : b ∈ String.utf8EncodeChar c) : 128 ≤ b.toNat := by
  have hnot : ¬ c.val.toNat ≤ 127 := Nat.not_le.mpr h
  unfold String.utf8EncodeChar at hb
  simp only [if_neg hnot] at hb
  split at hb
  · simp only [List.mem_cons, List.not_mem_nil, or_false] at hb
    rcases hb with rfl | rfl <;> rw [UInt8.toNat_ofNat'] <;> omega
  · split at hb
    · simp only [List.mem_cons, List.not_mem_nil, or_false] at hb
      rcases hb with rfl | rfl | rfl <;> rw [UInt8.toNat_ofNat'] <;> omega
    · simp only [List.mem_cons, List.not_mem_nil, or_false] at hb
      rcases hb with rfl | rfl | rfl | rfl <;> rw [UInt8.toNat_ofNat'] <;> omega

/-- An ASCII character is in a text where its octet is in the octets of the text. -/
theorem octet_mem_encode_iff {a : Char} (ha : a.toNat < 128) {s : String} :
    octet a ∈ Utf8.encode s ↔ a ∈ s.toList := by
  rw [Utf8.encode, List.mem_flatMap]
  constructor
  · intro hx
    obtain ⟨c, hc, hmem⟩ := hx
    rcases Nat.lt_or_ge c.toNat 128 with hlt | hge
    · rw [utf8EncodeChar_of_lt hlt, List.mem_singleton, ← UInt8.toNat_inj, toNat_octet ha,
        toNat_octet hlt, Char.toNat_inj] at hmem
      rw [hmem]
      exact hc
    · have hle := le_of_mem_utf8EncodeChar hge hmem
      rw [toNat_octet ha] at hle
      omega
  · intro hmem
    refine ⟨a, hmem, ?_⟩
    rw [utf8EncodeChar_of_lt ha]
    exact List.mem_singleton_self _

theorem encode_brackets (n : Nat) :
    Utf8.encode (String.ofList (List.replicate n '[')) = List.replicate n (octet '[') := by
  rw [Utf8.encode, String.toList_ofList, List.flatMap_replicate,
    utf8EncodeChar_of_lt (by decide)]
  induction n with
  | zero => rfl
  | succ n ih => rw [List.replicate_succ, List.flatten_cons, ih]; rfl

section Steps

variable {α β : Type} {x : Except Fault α}

theorem bind_eq_ok_iff {f : α → Except Fault β} {b : β} :
    x >>= f = .ok b ↔ ∃ a, x = .ok a ∧ f a = .ok b := by
  cases x with
  | error e => exact ⟨nofun, nofun⟩
  | ok a => exact ⟨fun h => ⟨a, rfl, h⟩, fun ⟨_, ha, h⟩ => Except.ok.inj ha ▸ h⟩

theorem map_eq_ok_iff {f : α → β} {b : β} :
    x.map f = .ok b ↔ ∃ a, x = .ok a ∧ f a = b := by
  cases x with
  | error e => exact ⟨nofun, nofun⟩
  | ok a =>
    exact ⟨fun h => ⟨a, rfl, Except.ok.inj h⟩,
      fun ⟨_, ha, h⟩ => congrArg _ ((congrArg f (Except.ok.inj ha)).trans h)⟩

end Steps

/-! ## 2. Types -/

/-- The step succeeds exactly where the text of a valid value comes next; it answers the value and
    passes the text. -/
def Reads {α : Type} (step : Cursor → Except Fault (α × Cursor)) (valid : α → Prop)
    (text : α → String) : Prop :=
  ∀ c a d, step c = .ok (a, d) ↔ valid a ∧ c.Passes (Utf8.encode (text a)) d

/-- **A class name goes up to the first terminator**, be its characters what they may. -/
theorem reads_objectName :
    Reads objectName (fun n => (ElementType.object n).WellFormed) (fun n => n ++ ";") := by
  intro c n d
  have hsemicolon : Utf8.encode (n ++ ";") = Utf8.encode n ++ [octet ';'] := Utf8.encode_append n _
  constructor
  · intro h
    obtain ⟨c₁, hc₁, hhead⟩ := c.exists_passes_takeWhile (· != octet ';')
    unfold objectName at h
    rw [Cursor.take?_eq_some_iff_passes.mpr ⟨rfl, hc₁⟩] at h
    simp only at h
    split at h
    · cases h
    rename_i b c₂ hnext
    split at h
    · cases h
    rename_i hne
    split at h
    · cases h
    rename_i n' hdecode
    cases h
    have hpass := Cursor.next?_eq_some_iff_passes.mp hnext
    have hb : b = octet ';' := by
      have hnot := hhead b (by rw [hpass.1]; rfl)
      simpa using hnot
    have hname := Utf8.decode?_eq_some_iff.mp hdecode
    refine ⟨⟨?_, ?_⟩, ?_⟩
    · rintro rfl
      rw [hname] at hne
      exact hne rfl
    · rw [← octet_mem_encode_iff (by decide), ← hname]
      intro hmem
      have hnot := List.all_eq_true.mp List.all_takeWhile _ hmem
      simp at hnot
    · rw [hsemicolon, ← hname]
      exact hc₁.append (hb ▸ hpass)
  · rintro ⟨⟨hne, hmem⟩, hpasses⟩
    rw [hsemicolon] at hpasses
    obtain ⟨c₁, hc₁, hpass⟩ := Cursor.passes_append_iff.mp hpasses
    have htake : c.rest.takeWhile (· != octet ';') = Utf8.encode n := by
      rw [hpasses.1, List.append_assoc, List.takeWhile_append_of_pos, List.singleton_append,
        List.takeWhile_cons_of_neg (by simp), List.append_nil]
      intro b hb
      rw [bne_iff_ne]
      rintro rfl
      exact hmem ((octet_mem_encode_iff (by decide)).mp hb)
    have hempty : (Utf8.encode n).isEmpty = false := by
      rw [List.isEmpty_eq_false_iff]
      intro hnil
      exact hne (Utf8.encode_injective hnil)
    unfold objectName
    rw [htake, Cursor.take?_eq_some_iff_passes.mpr ⟨rfl, hc₁⟩]
    simp only [Cursor.next?_eq_some_iff_passes.mpr hpass, hempty, Utf8.decode?_encode]
    rfl

theorem primitive?_eq_some_iff {b : UInt8} {p : Primitive} :
    primitive? b = some p ↔ b = octet p.letter := by
  constructor
  · intro h
    unfold primitive? at h
    split_ifs at h <;> cases h <;> assumption
  · rintro rfl
    exact primitive?_letter p

theorem encode_letter (p : Primitive) : Utf8.encode p.letter.toString = [octet p.letter] := by
  cases p <;> rfl

theorem encode_object (n : String) :
    Utf8.encode (ElementType.object n).descriptor = [octet 'L'] ++ Utf8.encode (n ++ ";") := by
  rw [ElementType.descriptor, String.append_assoc, Utf8.encode_append]
  rfl

/-- An element type is a letter of a primitive type, or a class name behind its letter. -/
theorem reads_elementType :
    Reads elementType ElementType.WellFormed ElementType.descriptor := by
  intro c e d
  constructor
  · intro h
    unfold elementType at h
    split at h
    · cases h
    rename_i b c₁ hnext
    have hpass := Cursor.next?_eq_some_iff_passes.mp hnext
    split at h
    · rename_i p hp
      cases h
      rw [primitive?_eq_some_iff.mp hp] at hpass
      exact ⟨trivial, (encode_letter p).symm ▸ hpass⟩
    · split at h
      · rename_i hb
        obtain ⟨⟨n, c₂⟩, hname, ⟨⟩⟩ := map_eq_ok_iff.mp h
        obtain ⟨hvalid, hpass'⟩ := (reads_objectName c₁ n d).mp hname
        refine ⟨hvalid, ?_⟩
        rw [encode_object, ← hb]
        exact hpass.append hpass'
      · cases h
  · rintro ⟨hvalid, hpasses⟩
    unfold elementType
    cases e with
    | primitive p =>
      rw [ElementType.descriptor, encode_letter] at hpasses
      simp only [Cursor.next?_eq_some_iff_passes.mpr hpasses, primitive?_letter]
    | object n =>
      rw [encode_object] at hpasses
      obtain ⟨c₁, hpass, hpass'⟩ := Cursor.passes_append_iff.mp hpasses
      have hL : primitive? (octet 'L') = none := by decide
      have hname := (reads_objectName c₁ n d).mpr ⟨hvalid, hpass'⟩
      simp only [Cursor.next?_eq_some_iff_passes.mpr hpass, hL, hname]
      rfl

/-- The text of an element type starts with a letter, and not with that of `void`. -/
theorem exists_encode_elementType (e : ElementType) :
    ∃ b bs, Utf8.encode e.descriptor = b :: bs ∧ b ≠ octet '[' ∧ b ≠ octet ')' ∧ b ≠ octet 'V' := by
  cases e with
  | primitive p => exact ⟨_, [], encode_letter p, by cases p <;> decide⟩
  | object n => exact ⟨_, _, encode_object n, by decide⟩

theorem exists_encode_valueType (t : ValueType) :
    ∃ b bs, Utf8.encode t.descriptor = b :: bs ∧ b ≠ octet ')' ∧ b ≠ octet 'V' := by
  cases t with
  | single e =>
    obtain ⟨b, bs, hencode, -, hb⟩ := exists_encode_elementType e
    exact ⟨b, bs, hencode, hb⟩
  | array e k =>
    rw [ValueType.descriptor, Utf8.encode_append, encode_brackets]
    cases k.toNat with
    | zero =>
      obtain ⟨b, bs, hencode, -, hb⟩ := exists_encode_elementType e
      exact ⟨b, bs, hencode, hb⟩
    | succ n => exact ⟨_, _, rfl, by decide⟩

/-- As many brackets as an array has dimensions stand before its element. -/
theorem of_withDimensions_eq_ok {n : Nat} {e : ElementType} {t : ValueType}
    (h : withDimensions n e = .ok t) (he : e.WellFormed) :
    t.WellFormed ∧
      Utf8.encode t.descriptor = List.replicate n (octet '[') ++ Utf8.encode e.descriptor := by
  unfold withDimensions at h
  split_ifs at h with hzero hlt
  · cases h
    subst hzero
    exact ⟨he, rfl⟩
  · cases h
    have hn : (UInt8.ofNat n).toNat = n := by
      rw [UInt8.toNat_ofNat', Nat.mod_eq_of_lt hlt]
    refine ⟨⟨he, fun hk => hzero ?_⟩, ?_⟩
    · rw [← hn, hk]; rfl
    · rw [ValueType.descriptor, hn, Utf8.encode_append, encode_brackets]

/-- Every well-formed type is an element type with up to 255 dimensions. -/
theorem exists_withDimensions {t : ValueType} (h : t.WellFormed) :
    ∃ n e, n ≤ 255 ∧ e.WellFormed ∧ withDimensions n e = .ok t := by
  cases t with
  | single e => exact ⟨0, e, Nat.zero_le _, h, rfl⟩
  | array e k =>
    have hk : k.toNat ≠ 0 := fun hzero => h.2 (UInt8.toNat_inj.mp hzero)
    refine ⟨k.toNat, e, Nat.le_of_lt_succ k.toNat_lt, h.1, ?_⟩
    rw [withDimensions, if_neg hk, if_pos k.toNat_lt, UInt8.ofNat_toNat]

/-- **A type is an element type behind up to 255 brackets.** -/
theorem reads_fieldType : Reads fieldType ValueType.WellFormed ValueType.descriptor := by
  intro c t d
  constructor
  · intro h
    obtain ⟨c₁, hc₁, -⟩ := c.exists_passes_takeWhile (· == octet '[')
    have hbrackets : c.rest.takeWhile (· == octet '[') =
        List.replicate (c.rest.takeWhile (· == octet '[')).length (octet '[') :=
      List.eq_replicate_of_mem fun b hb => by
        simpa using List.all_eq_true.mp List.all_takeWhile b hb
    unfold fieldType at h
    simp only [Cursor.advance?_of_passes hc₁] at h
    split at h
    · cases h
    split at h
    · cases h
    rename_i e c₂ helement
    obtain ⟨he, hpass⟩ := (reads_elementType c₁ e c₂).mp helement
    obtain ⟨t', htype, ⟨⟩⟩ := map_eq_ok_iff.mp h
    obtain ⟨ht, hencode⟩ := of_withDimensions_eq_ok htype he
    rw [hencode, ← hbrackets]
    exact ⟨ht, hc₁.append hpass⟩
  · rintro ⟨ht, hpasses⟩
    obtain ⟨n, e, hn, he, htype⟩ := exists_withDimensions ht
    obtain ⟨b, bs, hencode, hb, -⟩ := exists_encode_elementType e
    rw [(of_withDimensions_eq_ok htype he).2] at hpasses
    obtain ⟨c₁, hc₁, hpass⟩ := Cursor.passes_append_iff.mp hpasses
    -- the element starts with something else, so the brackets before it are all there are
    have hbrackets : c.rest.takeWhile (· == octet '[') = List.replicate n (octet '[') := by
      rw [hc₁.1, hpass.1, hencode, List.takeWhile_append_of_pos (by simp), List.cons_append,
        List.takeWhile_cons_of_neg (by simpa using hb), List.append_nil]
    have hadvance := Cursor.advance?_of_passes hc₁
    rw [List.length_replicate] at hadvance
    unfold fieldType
    simp only [hbrackets, List.length_replicate, if_neg (Nat.not_lt.mpr hn), hadvance,
      (reads_elementType c₁ e d).mpr ⟨he, hpass⟩, htype]
    rfl

/-! ## 3. Parameters and results -/

/-- The texts of types, one after the other. -/
theorem encode_join_cons (t : ValueType) (ts : List ValueType) :
    Utf8.encode (String.join ((t :: ts).map ValueType.descriptor)) =
      Utf8.encode t.descriptor ++ Utf8.encode (String.join (ts.map ValueType.descriptor)) := by
  rw [← Utf8.encode_append, List.map_cons, String.join_cons]

/-- Parameters and the parenthesis behind them. -/
def paramOctets (ts : List ValueType) : Bytes :=
  Utf8.encode (String.join (ts.map ValueType.descriptor)) ++ [octet ')']

/-- What starts with a parenthesis where a type would start has no more parameters. -/
theorem eq_nil_of_passes_paramOctets {c d : Cursor} {ts : List ValueType} {rest : Bytes}
    (h : c.Passes (paramOctets ts) d) (hrest : c.rest = octet ')' :: rest) : ts = [] := by
  cases ts with
  | nil => rfl
  | cons t ts =>
    obtain ⟨b, bs, hencode, hb, -⟩ := exists_encode_valueType t
    have hhead := h.1
    rw [hrest, paramOctets, encode_join_cons, hencode] at hhead
    exact absurd (List.cons.inj hhead).1.symm hb

/-- What does not start with a parenthesis starts with the first parameter. -/
theorem exists_of_passes_paramOctets {c d : Cursor} {ts : List ValueType} {b : UInt8} {rest : Bytes}
    (h : c.Passes (paramOctets ts) d) (hrest : c.rest = b :: rest) (hb : b ≠ octet ')') :
    ∃ t ts' c₁, ts = t :: ts' ∧ c.Passes (Utf8.encode t.descriptor) c₁ ∧
      c₁.Passes (paramOctets ts') d := by
  cases ts with
  | nil =>
    have hhead := h.1
    rw [hrest] at hhead
    exact absurd (List.cons.inj hhead).1 hb
  | cons t ts =>
    rw [paramOctets, encode_join_cons, List.append_assoc] at h
    obtain ⟨c₁, hc₁, hpass⟩ := Cursor.passes_append_iff.mp h
    exact ⟨t, ts, c₁, rfl, hc₁, hpass⟩

/-- **Parameters are types up to the first parenthesis that stands where a type would start.** -/
theorem params_eq_ok_iff (done : List ValueType) (c : Cursor) (ps : List ValueType) (d : Cursor) :
    params done c = .ok (ps, d) ↔ ∃ ts, ps = done.reverse ++ ts ∧ (∀ t ∈ ts, t.WellFormed) ∧
      c.Passes (paramOctets ts) d := by
  fun_induction params done c with
  | case1 done c hnext =>
    -- nothing is left, not even the parenthesis
    have hnil := (c.next?_eq_none_iff).mp hnext
    constructor
    · intro h
      cases h
    · intro hx
      obtain ⟨ts, -, -, hpasses⟩ := hx
      have hhead := hpasses.1
      rw [hnil, paramOctets, List.append_assoc] at hhead
      simp at hhead
  | case2 done c behind hnext =>
    have hpass := Cursor.next?_eq_some_iff_passes.mp hnext
    constructor
    · intro h
      cases h
      exact ⟨[], (List.append_nil _).symm, by simp, hpass⟩
    · intro hx
      obtain ⟨ts, rfl, -, hpasses⟩ := hx
      obtain rfl := eq_nil_of_passes_paramOctets hpasses hpass.1
      have hd : c.next? = some (octet ')', d) := Cursor.next?_eq_some_iff_passes.mpr hpasses
      rw [hnext] at hd
      cases hd
      rw [List.append_nil]
  | case3 done c b behind hnext hb f htype =>
    have hpass := Cursor.next?_eq_some_iff_passes.mp hnext
    constructor
    · intro h
      cases h
    · intro hx
      obtain ⟨ts, -, hts, hpasses⟩ := hx
      obtain ⟨t, ts, c₁, rfl, hc₁, -⟩ := exists_of_passes_paramOctets hpasses hpass.1 hb
      rw [(reads_fieldType c t c₁).mpr ⟨hts t List.mem_cons_self, hc₁⟩] at htype
      cases htype
  | case4 done c b behind hnext hb t c' htype ih =>
    have hpass := Cursor.next?_eq_some_iff_passes.mp hnext
    rw [ih]
    constructor
    · intro hx
      obtain ⟨ts, rfl, hts, hpasses⟩ := hx
      obtain ⟨ht, hc'⟩ := (reads_fieldType c t c').mp htype
      refine ⟨t :: ts, ?_, List.forall_mem_cons.mpr ⟨ht, hts⟩, ?_⟩
      · rw [List.reverse_cons, List.append_assoc]
        rfl
      · rw [paramOctets, encode_join_cons, List.append_assoc]
        exact hc'.append hpasses
    · intro hx
      obtain ⟨ts, rfl, hts, hpasses⟩ := hx
      obtain ⟨t', ts, c₁, rfl, hc₁, hpass'⟩ := exists_of_passes_paramOctets hpasses hpass.1 hb
      obtain ⟨ht', hts'⟩ := List.forall_mem_cons.mp hts
      rw [(reads_fieldType c t' c₁).mpr ⟨ht', hc₁⟩] at htype
      cases htype
      refine ⟨ts, ?_, hts', hpass'⟩
      rw [List.reverse_cons, List.append_assoc]
      rfl

/-- A result is the letter of `void`, which no type starts with, or a type. -/
theorem reads_returnType : Reads returnType ReturnType.WellFormed ReturnType.descriptor := by
  have hvoid : Utf8.encode ReturnType.void.descriptor = [octet 'V'] := rfl
  intro c r d
  constructor
  · intro h
    unfold returnType at h
    split at h
    · cases h
    rename_i b behind hnext
    split at h
    · rename_i hb
      cases h
      rw [hvoid, ← hb]
      exact ⟨trivial, Cursor.next?_eq_some_iff_passes.mp hnext⟩
    · obtain ⟨⟨t, c'⟩, htype, ⟨⟩⟩ := map_eq_ok_iff.mp h
      exact (reads_fieldType c t d).mp htype
  · rintro ⟨hr, hpasses⟩
    unfold returnType
    cases r with
    | void =>
      rw [hvoid] at hpasses
      simp only [Cursor.next?_eq_some_iff_passes.mpr hpasses, if_true]
    | value t =>
      obtain ⟨b, bs, hencode, -, hb⟩ := exists_encode_valueType t
      have hhead : c.rest = b :: (bs ++ d.rest) := by
        rw [hpasses.1]
        exact congrArg (· ++ d.rest) hencode
      obtain ⟨c₁, hpass, -⟩ := Cursor.exists_passes (show c.rest = [b] ++ _ from hhead)
      simp only [Cursor.next?_eq_some_iff_passes.mpr hpass, if_neg hb,
        (reads_fieldType c t d).mpr ⟨hr, hpasses⟩]
      rfl

/-! ## 4. Whole descriptors -/

theorem complete_eq_ok_iff {α : Type} {a b : α} {c : Cursor} :
    complete (a, c) = .ok b ↔ a = b ∧ c.rest = [] := by
  unfold complete Cursor.hasMore
  cases c.rest with
  | nil => simp
  | cons x xs => simp

/-- What is read from the start of a text to its end is the whole text. -/
theorem passes_ofBytes_encode_iff {s t : String} :
    (∃ d, (Cursor.ofBytes (Utf8.encode s)).Passes (Utf8.encode t) d ∧ d.rest = []) ↔ s = t := by
  constructor
  · intro hx
    obtain ⟨d, ⟨hrest, -⟩, hnil⟩ := hx
    rw [hnil, List.append_nil] at hrest
    exact Utf8.encode_injective hrest
  · rintro rfl
    exact Cursor.exists_passes (List.append_nil _).symm

end Descriptor

open Descriptor

/-- A text is parsed to a type exactly if it is what the well-formed type is written as. -/
theorem ValueType.parse_eq_ok_iff_eq_descriptor {s : String} {t : ValueType} :
    ValueType.parse s = .ok t ↔ t.WellFormed ∧ s = t.descriptor := by
  rw [← passes_ofBytes_encode_iff, ValueType.parse, bind_eq_ok_iff]
  constructor
  · intro hx
    obtain ⟨⟨t', d⟩, htype, hcomplete⟩ := hx
    obtain ⟨rfl, hnil⟩ := complete_eq_ok_iff.mp hcomplete
    obtain ⟨ht, hpasses⟩ := (reads_fieldType _ t' d).mp htype
    exact ⟨ht, d, hpasses, hnil⟩
  · rintro ⟨ht, d, hpasses, hnil⟩
    exact ⟨(t, d), (reads_fieldType _ t d).mpr ⟨ht, hpasses⟩, complete_eq_ok_iff.mpr ⟨rfl, hnil⟩⟩

theorem encode_methodDescriptor (m : MethodDescriptor) :
    Utf8.encode m.descriptor =
      [octet '('] ++ (paramOctets m.params ++ Utf8.encode m.result.descriptor) := by
  rw [MethodDescriptor.descriptor, paramOctets]
  simp only [Utf8.encode_append, List.append_assoc]
  rfl

/-- A text is parsed to the types of a method exactly if it is what they are written as. -/
theorem MethodDescriptor.parse_eq_ok_iff_eq_descriptor {s : String} {m : MethodDescriptor} :
    MethodDescriptor.parse s = .ok m ↔ m.WellFormed ∧ s = m.descriptor := by
  rw [← passes_ofBytes_encode_iff, encode_methodDescriptor, MethodDescriptor.parse, method]
  constructor
  · intro h
    split at h
    · cases h
    rename_i b c₁ hnext
    split at h
    · rename_i hb
      obtain ⟨⟨ps, c₂⟩, hparams, h'⟩ := bind_eq_ok_iff.mp h
      obtain ⟨⟨r, d⟩, hresult, hcomplete⟩ := bind_eq_ok_iff.mp h'
      obtain ⟨rfl, hnil⟩ := complete_eq_ok_iff.mp hcomplete
      obtain ⟨_, rfl, hps, hpass'⟩ := (params_eq_ok_iff [] c₁ ps c₂).mp hparams
      obtain ⟨hr, hpass''⟩ := (reads_returnType c₂ r d).mp hresult
      have hpass := hb ▸ Cursor.next?_eq_some_iff_passes.mp hnext
      exact ⟨⟨hps, hr⟩, d, hpass.append (hpass'.append hpass''), hnil⟩
    · cases h
  · rintro ⟨⟨hps, hr⟩, d, hpasses, hnil⟩
    obtain ⟨c₁, hpass, hrest⟩ := Cursor.passes_append_iff.mp hpasses
    obtain ⟨c₂, hpass', hpass''⟩ := Cursor.passes_append_iff.mp hrest
    have hparams := (params_eq_ok_iff [] c₁ m.params c₂).mpr ⟨m.params, rfl, hps, hpass'⟩
    have hresult := (reads_returnType c₂ m.result d).mpr ⟨hr, hpass''⟩
    simp only [Cursor.next?_eq_some_iff_passes.mpr hpass, if_true]
    exact bind_eq_ok_iff.mpr ⟨(m.params, c₂), hparams,
      bind_eq_ok_iff.mpr ⟨(m.result, d), hresult, complete_eq_ok_iff.mpr ⟨rfl, hnil⟩⟩⟩

/-! ## 5. What is reported about other texts -/

namespace Descriptor

/-- A fault is damage, unless nothing is there at all. -/
theorem Fault.toError_of_ne_missing {f : Fault} (h : f ≠ .missing) :
    f.toError = .malformed (.noDescriptor f) := by
  cases f with
  | missing => exact absurd rfl h
  | _ => rfl

theorem objectName_ne_missing (c : Cursor) : objectName c ≠ .error .missing := by
  unfold objectName
  intro h
  split at h
  · cases h
  split at h
  · cases h
  split at h
  · cases h
  split at h <;> cases h

theorem map_ne_missing {α β : Type} {x : Except Fault α} (h : x ≠ .error .missing) (f : α → β) :
    x.map f ≠ .error .missing := by
  cases x with
  | ok a => nofun
  | error e =>
    intro he
    cases he
    exact h rfl

theorem bind_ne_missing {α β : Type} {x : Except Fault α} {f : α → Except Fault β}
    (h : x ≠ .error .missing) (hf : ∀ a, f a ≠ .error .missing) : x >>= f ≠ .error .missing := by
  cases x with
  | ok a => exact hf a
  | error e =>
    intro he
    cases he
    exact h rfl

theorem elementType_ne_missing (c : Cursor) : elementType c ≠ .error .missing := by
  unfold elementType
  intro h
  split at h
  · cases h
  split at h
  · cases h
  split at h
  · exact map_ne_missing (objectName_ne_missing _) _ h
  · cases h

theorem withDimensions_ne_missing (n : Nat) (e : ElementType) :
    withDimensions n e ≠ .error .missing := by
  unfold withDimensions
  split_ifs <;> nofun

theorem fieldType_ne_missing (c : Cursor) : fieldType c ≠ .error .missing := by
  unfold fieldType
  simp only
  split
  · nofun
  split
  · nofun
  rename_i c₁ _
  split
  · rename_i f helement
    intro hf
    cases hf
    exact elementType_ne_missing c₁ helement
  · exact map_ne_missing (withDimensions_ne_missing _ _) _

theorem params_ne_missing (done : List ValueType) (c : Cursor) :
    params done c ≠ .error .missing := by
  fun_induction params done c with
  | case1 => nofun
  | case2 => nofun
  | case3 done c b behind hnext hb f htype =>
    intro hf
    cases hf
    exact fieldType_ne_missing c htype
  | case4 done c b behind hnext hb t c' htype ih => exact ih

theorem returnType_ne_missing (c : Cursor) : returnType c ≠ .error .missing := by
  unfold returnType
  intro h
  split at h
  · cases h
  split at h
  · cases h
  · exact map_ne_missing (fieldType_ne_missing c) _ h

theorem complete_ne_missing {α : Type} (read : α × Cursor) : complete read ≠ .error .missing := by
  unfold complete
  split <;> nofun

/-- A method descriptor is missing where nothing is left. -/
theorem method_eq_missing_iff {c : Cursor} : method c = .error .missing ↔ c.rest = [] := by
  rw [← c.next?_eq_none_iff, method]
  constructor
  · intro h
    split at h
    · assumption
    split at h
    · refine absurd h (bind_ne_missing (params_ne_missing _ _) fun read => ?_)
      exact bind_ne_missing (returnType_ne_missing _) fun read' => complete_ne_missing _
    · cases h
  · intro h
    rw [h]

end Descriptor

theorem ValueType.parse_ne_missing (s : String) : ValueType.parse s ≠ .error .missing :=
  bind_ne_missing (fieldType_ne_missing _) complete_ne_missing

theorem MethodDescriptor.parse_eq_missing_iff {s : String} :
    MethodDescriptor.parse s = .error .missing ↔ s = "" := by
  rw [MethodDescriptor.parse, method_eq_missing_iff, Cursor.rest_ofBytes]
  exact ⟨fun h => Utf8.encode_injective h, fun h => h ▸ rfl⟩

/-- **The grammar of descriptors.** The texts that are parsed are those that well-formed types are
    written as, and they are parsed to these types. Of all other texts the empty one is reported as
    data that is too short where a method is described, and everything else as damage. -/
theorem parse_iff_descriptor_and_toError (s : String) :
    (∀ m, MethodDescriptor.parse s = .ok m ↔ m.WellFormed ∧ s = m.descriptor) ∧
    (∀ t, ValueType.parse s = .ok t ↔ t.WellFormed ∧ s = t.descriptor) ∧
    ((MethodDescriptor.parse s).mapError Fault.toError = .error .outOfBounds ↔ s = "") ∧
    (∀ f, MethodDescriptor.parse s = .error f → s ≠ "" →
      f.toError = .malformed (.noDescriptor f)) ∧
    (∀ f, ValueType.parse s = .error f → f.toError = .malformed (.noDescriptor f)) := by
  refine ⟨fun m => MethodDescriptor.parse_eq_ok_iff_eq_descriptor,
    fun t => ValueType.parse_eq_ok_iff_eq_descriptor, ?_, fun f hf hs => ?_, fun f hf => ?_⟩
  · rw [← MethodDescriptor.parse_eq_missing_iff]
    cases MethodDescriptor.parse s with
    | ok m => exact ⟨nofun, nofun⟩
    | error f => cases f <;> simp [Except.mapError, Fault.toError]
  · refine Fault.toError_of_ne_missing ?_
    rintro rfl
    exact hs (MethodDescriptor.parse_eq_missing_iff.mp hf)
  · refine Fault.toError_of_ne_missing ?_
    rintro rfl
    exact ValueType.parse_ne_missing s hf

/-- A class name may look like a descriptor, `void` is no parameter, and only the empty method
    descriptor is data that is too short. -/
theorem parse_nested_and_void :
    MethodDescriptor.parse "(L(I)V[;[[J)V" =
      .ok ⟨[.single (.object "(I)V["), .array (.primitive .long) 2], .void⟩ ∧
    (MethodDescriptor.parse "").mapError Fault.toError = .error .outOfBounds ∧
    (MethodDescriptor.parse "(V)V" = .error (.invalidCharacter (octet 'V') 1) ∧
      Fault.toError (.invalidCharacter (octet 'V') 1) =
        .malformed (.noDescriptor (.invalidCharacter (octet 'V') 1))) ∧
    ValueType.parse "" = .error .unexpectedEnd ∧
      Fault.toError .unexpectedEnd = .malformed (.noDescriptor .unexpectedEnd) := by
  have hvoid : MethodDescriptor.parse "(V)V" = .error (.invalidCharacter (octet 'V') 1) := by
    decide +kernel
  have hempty : ValueType.parse "" = .error .unexpectedEnd := by decide +kernel
  exact ⟨((parse_iff_descriptor_and_toError _).1 _).mpr ⟨by decide, by decide⟩,
    (parse_iff_descriptor_and_toError _).2.2.1.mpr rfl,
    ⟨hvoid, (parse_iff_descriptor_and_toError _).2.2.2.1 _ hvoid (by decide)⟩,
    hempty, (parse_iff_descriptor_and_toError _).2.2.2.2 _ hempty⟩

end SdkConformance
