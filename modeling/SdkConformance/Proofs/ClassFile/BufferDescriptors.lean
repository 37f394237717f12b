import SdkConformance.Proofs.ClassFile.BufferReads
import SdkConformance.Proofs.ClassFile.DescriptorGrammar

/-!
# Descriptors in a bare buffer

The parser of descriptors scans octets, slices what is left of them, takes a class name for text and
counts brackets in an address. Of a text, all of these have a result, since the parser only ever
stands between characters: the octet of an ASCII character is never inside another one.

* `Cursor.OnBoundary`: what is left is the form of a text; `OnBoundary.of_passes` and
  `OnBoundary.exists_takeWhile` are why the parser stays there;
* `BufferReader.brackets`, `elementType`, `fieldType`, `params`, `methodTypes`: the parser with the
  operations of a bare buffer;
* `matches_fieldType`, `matches_params`: each of its parts comes to what the part over cursors does;
* `MethodDescriptor.sound_parseBuffer`, `ValueType.sound_parseBuffer`: whole descriptors.
-/

namespace SdkConformance

/-! ## 1. Between characters -/

namespace Utf8

/-- The octets of a character tell where they end. -/
theorem eq_of_utf8EncodeChar_append {a b : Char} {as bs : Bytes}
    (h : String.utf8EncodeChar a ++ as = String.utf8EncodeChar b ++ bs) : a = b := by
  have hdecode : ∀ (c : Char) (cs : Bytes),
      (String.utf8EncodeChar c ++ cs).toByteArray.utf8DecodeChar? 0 = some c := by
    intro c cs
    rw [List.toByteArray_append]
    exact ByteArray.utf8DecodeChar?_utf8EncodeChar_append
  have hsame := hdecode a as
  rw [h, hdecode b bs] at hsame
  exact (Option.some.inj hsame).symm

/-- What follows a text in the octets of another text is text. -/
theorem exists_encode_of_append {s t : String} {rest : Bytes} (h : encode t = encode s ++ rest) :
    ∃ u, rest = encode u := by
  suffices hchars : ∀ as bs : List Char, ∀ rest,
      bs.flatMap String.utf8EncodeChar = as.flatMap String.utf8EncodeChar ++ rest →
      ∃ cs : List Char, rest = cs.flatMap String.utf8EncodeChar by
    obtain ⟨cs, hcs⟩ := hchars s.toList t.toList rest h
    exact ⟨String.ofList cs, by rw [encode, String.toList_ofList, hcs]⟩
  intro as
  induction as with
  | nil => exact fun bs rest h => ⟨bs, h.symm⟩
  | cons a as ih =>
    intro bs rest h
    cases bs with
    | nil =>
      have hlength := congrArg List.length h
      rw [List.flatMap_cons, List.length_append, List.length_append,
        String.length_utf8EncodeChar] at hlength
      have hpos := a.utf8Size_pos
      simp only [List.flatMap_nil, List.length_nil] at hlength
      omega
    | cons b bs =>
      rw [List.flatMap_cons, List.flatMap_cons, List.append_assoc] at h
      obtain rfl := eq_of_utf8EncodeChar_append h
      exact ih bs rest (List.append_cancel_left h)

/-- The octets of a text up to that of an ASCII character are text. -/
theorem exists_encode_takeWhile {a : Char} (ha : a.toNat < 128) (t : String) :
    ∃ u, (encode t).takeWhile (· != Descriptor.octet a) = encode u := by
  suffices hchars : ∀ cs : List Char, ∃ ds : List Char,
      (cs.flatMap String.utf8EncodeChar).takeWhile (· != Descriptor.octet a) =
        ds.flatMap String.utf8EncodeChar by
    obtain ⟨ds, hds⟩ := hchars t.toList
    exact ⟨String.ofList ds, by rw [encode, hds, encode, String.toList_ofList]⟩
  intro cs
  induction cs with
  | nil => exact ⟨[], rfl⟩
  | cons c cs ih =>
    obtain ⟨ds, hds⟩ := ih
    by_cases hc : c = a
    · refine ⟨[], ?_⟩
      rw [List.flatMap_cons, hc, Descriptor.utf8EncodeChar_of_lt ha, List.singleton_append,
        List.takeWhile_cons_of_neg (by simp)]
      rfl
    · have hnone : ∀ b ∈ String.utf8EncodeChar c, (b != Descriptor.octet a) = true := by
        intro b hb
        rw [bne_iff_ne]
        rintro rfl
        have hmem := (Descriptor.octet_mem_encode_iff (s := String.ofList [c]) ha).mp
          (by rw [encode, String.toList_ofList, List.flatMap_singleton]; exact hb)
        rw [String.toList_ofList, List.mem_singleton] at hmem
        exact hc hmem.symm
      refine ⟨c :: ds, ?_⟩
      rw [List.flatMap_cons, List.takeWhile_append_of_pos hnone, hds, List.flatMap_cons]

end Utf8

namespace Cursor

variable {c d : Cursor}

/-- The cursor stands between characters: what is left is the form of a text. -/
def OnBoundary (c : Cursor) : Prop := ∃ t, c.rest = Utf8.encode t

/-- Behind a text, the cursor stands between characters again. -/
theorem OnBoundary.of_passes {s : String} (h : c.OnBoundary)
    (hpasses : c.Passes (Utf8.encode s) d) : d.OnBoundary := by
  obtain ⟨t, ht⟩ := h
  exact Utf8.exists_encode_of_append (ht.symm.trans hpasses.1)

/-- So it does behind an ASCII character. -/
theorem OnBoundary.of_next? {a : Char} (ha : a.toNat < 128) (h : c.OnBoundary)
    (hnext : c.next? = some (Descriptor.octet a, d)) : d.OnBoundary := by
  refine h.of_passes (s := a.toString) ?_
  have hencode : Utf8.encode a.toString = [Descriptor.octet a] := by
    rw [Utf8.encode, Char.toString, String.toList_singleton, List.flatMap_singleton,
      Descriptor.utf8EncodeChar_of_lt ha]
  rw [hencode]
  exact next?_eq_some_iff_passes.mp hnext

end Cursor

/-! ## 2. The parser -/

/-- A number, if it fits an octet. -/
def Address.octet? (n : Nat) : Option UInt8 := if n < 256 then some (UInt8.ofNat n) else none

namespace BufferReader

open Descriptor

/-- The octet at the position, where a type is expected. -/
def peekType : BufferReader Fault UInt8 := fun b =>
  ((peek : BufferReader Fault UInt8) b).mapError (Halt.map fun _ => Fault.unexpectedEnd)

/-- The class name up to its terminator, in what is left of the data. -/
def objectName : BufferReader Fault String := do
  let b ← get
  let start := b.position
  let rest ← must (b.data.slice? start b.data.length)
  match rest.findIdx? (· == octet ';') with
  | none => report (.unterminated start)
  | some length =>
    if length = 0 then report (.emptyName start)
    else do
      let name ← octets length
      advance 1
      match Utf8.decode? name with
      | some n => return n
      | none => defend (.invalidName start)

/-- A primitive type or a class. The octet in question is the one before the position. -/
def elementType : BufferReader Fault ElementType := do
  let current ← peekType
  advance 1
  match primitive? current with
  | some p => return .primitive p
  | none =>
    if current = octet 'L' then return .object (← objectName)
    else do
      let b ← get
      let index ← must (Address.sub? b.position 1)
      report (.invalidCharacter current index)

/-- Passes brackets, and answers how many there are together with those before. The limit is tested
    before a bracket is passed. -/
def brackets (dimensions : Nat) : BufferReader Fault Nat := do
  let current ← peekType
  if current = octet '[' then
    match _h : Address.add? dimensions 1 with
    | none => throw .panic
    | some next =>
      if 255 < next then report .tooManyDimensions
      else do
        advance 1
        brackets next
  else return dimensions
termination_by 256 - dimensions
decreasing_by
  have := Address.eq_add_of_add? _h
  omega

/-- The type of a field or a parameter. -/
def fieldType : BufferReader Fault ValueType := do
  let dimensions ← brackets 0
  let element ← elementType
  if dimensions = 0 then return .single element
  else
    match Address.octet? dimensions with
    | some k => return .array element k
    | none => defend (.dimensions dimensions)

/-- The parameters up to the closing parenthesis, after those read before, in reverse. A round that
    leaves as much data as there was would be followed by the same one for ever. -/
def params (done : List ValueType) : BufferReader Fault (List ValueType) := fun b =>
  match peekType b with
  | .error halt => .error halt
  | .ok (current, _) =>
    if current = octet ')' then (do advance 1; return done.reverse : BufferReader Fault _) b
    else
      match fieldType b with
      | .error halt => .error halt
      | .ok (t, b') =>
        if b'.data.length - b'.position < b.data.length - b.position then params (t :: done) b'
        else .error .panic
termination_by b => b.data.length - b.position

/-- The result of a method. -/
def returnType : BufferReader Fault ReturnType := do
  let current ← peekType
  if current = octet 'V' then do
    advance 1
    return .void
  else return .value (← fieldType)

/-- Nothing is left. -/
def complete : BufferReader Fault Unit := do
  let b ← get
  if b.position < b.data.length then report (.trailing b.position) else return ()

/-- A method descriptor up to the end of the data. -/
def methodTypes : BufferReader Fault MethodDescriptor := do
  let start ← u8
  if start = octet '(' then do
    let ps ← params []
    let r ← returnType
    complete
    return ⟨ps, r⟩
  else report .noParenthesis

/-- A field descriptor up to the end of the data. -/
def wholeFieldType : BufferReader Fault ValueType := do
  let t ← fieldType
  complete
  return t

/-! ## 3. Its parts -/

section Parts

variable {c d : Cursor}

theorem matches_octets_of_take? {n : Nat} {bs : Bytes} (h : c.take? n = some (bs, d)) :
    Matches c.data (octets n c.buffer) (.ok (bs, d) : Except Fault (Bytes × Cursor)) := by
  have hmatches := matches_octets (ε := Fault) c n
  rw [h] at hmatches
  exact hmatches

theorem peekType_of_none (h : c.next? = none) :
    peekType c.buffer = .error (.reported .unexpectedEnd) := by
  have hpeek : c.peek? = none := by
    rw [Cursor.peek?, (c.next?_eq_none_iff).mp h]
    rfl
  rw [peekType, peek_eq, hpeek]
  rfl

theorem peekType_of_some {a : UInt8} (h : c.next? = some (a, d)) :
    peekType c.buffer = .ok (a, c.buffer) := by
  have hpeek : c.peek? = some a := by
    rw [Cursor.peek?, ((c.next?_eq_some_iff d a).mp h).1]
    rfl
  rw [peekType, peek_eq, hpeek]
  rfl

/-- The octet that was looked at can be passed. -/
theorem matches_advance_of_next? {a : UInt8} (h : c.next? = some (a, d)) :
    Matches c.data (advance 1 c.buffer) (.ok ((), d) : Except Fault (Unit × Cursor)) := by
  have hmatches := matches_advance (ε := Fault) c 1
  have hadvance := Cursor.advance?_of_passes (Cursor.next?_eq_some_iff_passes.mp h)
  rw [show c.advance? 1 = some d from hadvance] at hmatches
  exact hmatches

/-- The first octet of a kind stands behind those that are not of this kind. -/
theorem findIdx?_eq (p : UInt8 → Bool) (bs : Bytes) :
    bs.findIdx? p =
      if (bs.takeWhile (! p ·)).length < bs.length then some (bs.takeWhile (! p ·)).length
      else none := by
  induction bs with
  | nil => rfl
  | cons b bs ih =>
    rw [List.findIdx?_cons]
    by_cases hb : p b = true
    · rw [if_pos hb, List.takeWhile_cons_of_neg (by simp [hb])]
      rfl
    · rw [if_neg hb, List.takeWhile_cons_of_pos (by simp [hb]), ih, List.length_cons,
        List.length_cons]
      split_ifs <;> first | rfl | omega

/-- What is left can be sliced off at any cursor. -/
theorem slice?_rest (c : Cursor) :
    c.buffer.data.slice? c.buffer.position c.buffer.data.length = some c.rest := by
  have hslice := c.slice?_eq (Nat.le_refl c.remaining)
  rw [c.pos_add_remaining, ← c.length_rest, List.take_length] at hslice
  exact hslice

/-- **A class name is text**, as the octets between characters up to a terminator are. -/
theorem matches_objectName (hboundary : c.OnBoundary) :
    Matches c.data (objectName c.buffer) (Descriptor.objectName c) := by
  obtain ⟨t, ht⟩ := hboundary
  obtain ⟨n, hn⟩ := Utf8.exists_encode_takeWhile (a := ';') (by decide) t
  obtain ⟨c₁, hpass, -⟩ := c.exists_passes_takeWhile (· != octet ';')
  have hindex := findIdx?_eq (· == octet ';') c.rest
  change _ = if (c.rest.takeWhile (· != octet ';')).length < _
    then some (c.rest.takeWhile (· != octet ';')).length else none at hindex
  rw [← ht] at hn
  rw [hn] at hpass hindex
  have htake := Cursor.take?_eq_some_iff_passes.mpr ⟨rfl, hpass⟩
  have hlength := congrArg List.length hpass.1
  rw [List.length_append] at hlength
  unfold objectName Descriptor.objectName
  rw [get_bind, must_bind (slice?_rest c), hn, htake, hindex]
  dsimp only
  cases hnext : c₁.next? with
  | none =>
    have hnil := (c₁.next?_eq_none_iff).mp hnext
    rw [hnil, List.length_nil] at hlength
    rw [if_neg (by omega)]
    exact .error id
  | some read =>
    obtain ⟨b, c₂⟩ := read
    obtain ⟨hrest, hdata, -⟩ := (c₁.next?_eq_some_iff c₂ b).mp hnext
    rw [hrest, List.length_cons] at hlength
    rw [if_pos (by omega)]
    dsimp only
    by_cases hempty : (Utf8.encode n).length = 0
    · rw [if_pos hempty, if_pos (List.isEmpty_iff.mpr (List.length_eq_zero_iff.mp hempty))]
      exact .error id
    · rw [if_neg hempty, if_neg (mt List.isEmpty_iff.mp (mt List.length_eq_zero_iff.mpr hempty)),
        Utf8.decode?_encode]
      refine (matches_octets_of_take? htake).bind_ok ?_
      rw [← hpass.2.1]
      refine (matches_advance_of_next? hnext).bind_ok ?_
      rw [Utf8.decode?_encode]
      exact .ok n hdata

/-- **An element type is read as behind a cursor**, and a wrong octet is one that was passed. -/
theorem matches_elementType (hboundary : c.OnBoundary) :
    Matches c.data (elementType c.buffer) (Descriptor.elementType c) := by
  unfold elementType Descriptor.elementType
  cases hnext : c.next? with
  | none =>
    rw [bind_of_error (peekType_of_none hnext)]
    exact .error id
  | some read =>
    obtain ⟨b, c₁⟩ := read
    obtain ⟨hrest, hdata, hpos⟩ := (c.next?_eq_some_iff c₁ b).mp hnext
    rw [bind_of_ok (peekType_of_some hnext)]
    refine (matches_advance_of_next? hnext).bind_ok ?_
    dsimp only
    cases primitive? b with
    | some p => exact .ok _ hdata
    | none =>
      by_cases hb : b = octet 'L'
      · subst hb
        simp only [if_true]
        rw [← hdata]
        exact (matches_objectName (hboundary.of_next? (by decide) hnext)).map
      · have hindex : Address.sub? c₁.buffer.position 1 = some c.pos := by
          rw [Cursor.buffer, hpos, Address.sub?, if_pos (Nat.le_add_left 1 _),
            Nat.add_sub_cancel]
        simp only [if_neg hb]
        rw [get_bind, must_bind hindex]
        exact .error id

/-- A bracket is counted, since a count within the limit is no address that a sum could exceed. -/
theorem brackets_of_bracket {dimensions : Nat} (hnext : c.next? = some (octet '[', d))
    (hdimensions : dimensions ≤ 255) :
    brackets dimensions c.buffer =
      (if 255 < dimensions + 1 then report .tooManyDimensions
        else advance 1 >>= fun _ => brackets (dimensions + 1)) c.buffer := by
  have hadd : Address.add? dimensions 1 = some (dimensions + 1) :=
    Address.add?_of_lt (Nat.lt_of_le_of_lt (Nat.succ_le_succ hdimensions) (by decide))
  rw [brackets, bind_of_ok (peekType_of_some hnext), if_pos rfl]
  refine congrFun ?_ _
  split
  case h_1 hnone =>
    rw [hadd] at hnone
    cases hnone
  case h_2 next hsome =>
    rw [hadd] at hsome
    cases hsome
    rfl

/-- What brackets in a row come to, with those before them: their number, if it is within the limit
    and something follows them. -/
def bracketCount (dimensions n : Nat) (d : Cursor) : Except Fault (Nat × Cursor) :=
  if 255 < dimensions + n then .error .tooManyDimensions
  else if d.rest = [] then .error .unexpectedEnd
  else .ok (dimensions + n, d)

/-- **Brackets are counted up to the limit, which is tested before the count is kept.** So the count
    never exceeds an address, nor an octet. -/
theorem matches_brackets {n dimensions : Nat} (hpasses : c.Passes (List.replicate n (octet '[')) d)
    (hd : ∀ b ∈ d.rest.head?, b ≠ octet '[') (hdimensions : dimensions ≤ 255) :
    Matches c.data (brackets dimensions c.buffer) (bracketCount dimensions n d) := by
  induction n generalizing c dimensions with
  | zero =>
    obtain rfl := Cursor.passes_nil_iff.mp hpasses
    rw [bracketCount, if_neg (by omega), brackets]
    cases hnext : d.next? with
    | none =>
      rw [bind_of_error (peekType_of_none hnext), if_pos ((d.next?_eq_none_iff).mp hnext)]
      exact .error id
    | some read =>
      obtain ⟨b, d₁⟩ := read
      have hrest := ((d.next?_eq_some_iff d₁ b).mp hnext).1
      rw [bind_of_ok (peekType_of_some hnext), if_neg (hd b (by rw [hrest]; rfl)),
        if_neg (by rw [hrest]; exact List.cons_ne_nil _ _)]
      exact .ok _ rfl
  | succ n ih =>
    obtain ⟨c₁, hfirst, hothers⟩ := Cursor.passes_append_iff.mp
      (show c.Passes ([octet '['] ++ List.replicate n (octet '[')) d from hpasses)
    have hnext := Cursor.next?_eq_some_iff_passes.mpr hfirst
    rw [brackets_of_bracket hnext hdimensions]
    by_cases hlimit : 255 < dimensions + 1
    · rw [if_pos hlimit, bracketCount, if_pos (by omega)]
      exact .error id
    · have hcount : bracketCount dimensions (n + 1) d = bracketCount (dimensions + 1) n d := by
        rw [bracketCount, bracketCount, Nat.add_right_comm, Nat.add_assoc]
      rw [if_neg hlimit, hcount]
      refine (matches_advance_of_next? hnext).bind_ok ?_
      rw [← hfirst.2.1]
      exact ih hothers (by omega)

/-- A type is an element behind its brackets. -/
theorem exists_fieldType_eq (c : Cursor) :
    ∃ n d, c.Passes (List.replicate n (octet '[')) d ∧ (∀ b ∈ d.rest.head?, b ≠ octet '[') ∧
      Descriptor.fieldType c = bracketCount 0 n d >>= fun counted =>
        Descriptor.elementType counted.2 >>= fun read =>
          (withDimensions counted.1 read.1).map fun t => (t, read.2) := by
  obtain ⟨d, hpass, hhead⟩ := c.exists_passes_takeWhile (· == octet '[')
  have hadvance := Cursor.advance?_of_passes hpass
  have hbrackets : c.rest.takeWhile (· == octet '[') =
      List.replicate (c.rest.takeWhile (· == octet '[')).length (octet '[') :=
    List.eq_replicate_of_mem fun b hb => by
      simpa using List.all_eq_true.mp List.all_takeWhile b hb
  refine ⟨_, d, hbrackets ▸ hpass, fun b hb => by simpa using hhead b hb, ?_⟩
  rw [Descriptor.fieldType, hadvance, bracketCount, Nat.zero_add]
  dsimp only
  split_ifs with hlimit hnil
  · rfl
  · rw [Descriptor.elementType, (d.next?_eq_none_iff).mpr hnil]
    rfl
  · show _ = Descriptor.elementType d >>= _
    cases Descriptor.elementType d <;> rfl

/-- **A type is read as behind a cursor**, and its dimensions fit an octet. -/
theorem matches_fieldType (hboundary : c.OnBoundary) :
    Matches c.data (fieldType c.buffer) (Descriptor.fieldType c) := by
  obtain ⟨n, c₁, hpass, hhead, heq⟩ := exists_fieldType_eq c
  have hboundary₁ : c₁.OnBoundary :=
    hboundary.of_passes (s := String.ofList (List.replicate n '['))
      (by rw [encode_brackets]; exact hpass)
  rw [heq]
  refine (matches_brackets hpass hhead (Nat.zero_le 255)).bind fun dimensions d hcount hdata => ?_
  unfold bracketCount at hcount
  split_ifs at hcount with hlimit hnil
  cases hcount
  rw [← hdata]
  refine (matches_elementType hboundary₁).bind fun e c₂ _ hdata₂ => ?_
  dsimp only
  rw [withDimensions]
  by_cases hzero : 0 + n = 0
  · rw [if_pos hzero, if_pos hzero]
    exact .ok _ hdata₂
  · have hoctet : Address.octet? (0 + n) = some (UInt8.ofNat (0 + n)) := if_pos (by omega)
    rw [if_neg hzero, if_neg hzero, if_pos (show 0 + n < 256 by omega), hoctet]
    exact .ok _ hdata₂

/-- Behind a type, the cursor stands between characters again. -/
theorem onBoundary_of_fieldType {t : ValueType} (hboundary : c.OnBoundary)
    (h : Descriptor.fieldType c = .ok (t, d)) : d.OnBoundary :=
  hboundary.of_passes ((reads_fieldType c t d).mp h).2

/-- **Parameters are read as behind a cursor**, and every round of the loop gets further. -/
theorem matches_params (done : List ValueType) (hboundary : c.OnBoundary) :
    Matches c.data (params done c.buffer) (Descriptor.params done c) := by
  fun_induction Descriptor.params done c with
  | case1 done c hnext =>
    rw [params, peekType_of_none hnext]
    exact .error id
  | case2 done c behind hnext =>
    rw [params, peekType_of_some hnext]
    simp only [if_true]
    exact (matches_advance_of_next? hnext).bind_ok
      (.ok _ ((c.next?_eq_some_iff behind _).mp hnext).2.1)
  | case3 done c b behind hnext hb f htype =>
    have hread := matches_fieldType hboundary
    rw [htype] at hread
    rw [params, peekType_of_some hnext]
    simp only [if_neg hb]
    generalize fieldType c.buffer = run at hread
    cases hread with
    | error h => exact .error h
    | beyond hsize hdata h =>
      refine .beyond hsize (fun _ _ hok => ?_) fun f' hf => ?_
      · cases hok
      · cases hf
        exact h f rfl
  | case4 done c b behind hnext hb t c' htype ih =>
    have hread := matches_fieldType hboundary
    rw [htype] at hread
    have hdata' : c'.data = c.data := hread.data_eq t c' rfl
    have hfurther : c'.buffer.data.length - c'.buffer.position <
        c.buffer.data.length - c.buffer.position := fieldType_remaining_lt htype
    have hothers := ih (onBoundary_of_fieldType hboundary htype)
    rw [hdata'] at hothers
    rw [params, peekType_of_some hnext]
    simp only [if_neg hb]
    generalize fieldType c.buffer = run at hread
    cases hread with
    | ok =>
      dsimp only
      rw [if_pos hfurther]
      exact hothers
    | beyond hsize => exact .beyond hsize hothers.data_eq hothers.not_defended

theorem onBoundary_of_params {ps : List ValueType} (hboundary : c.OnBoundary)
    (h : Descriptor.params [] c = .ok (ps, d)) : d.OnBoundary := by
  obtain ⟨ts, -, -, hpasses⟩ := (params_eq_ok_iff [] c ps d).mp h
  have hencode : Utf8.encode (String.join (ts.map ValueType.descriptor) ++ ")") =
      paramOctets ts := Utf8.encode_append _ _
  exact hboundary.of_passes (hencode ▸ hpasses)

theorem matches_returnType (hboundary : c.OnBoundary) :
    Matches c.data (returnType c.buffer) (Descriptor.returnType c) := by
  unfold returnType Descriptor.returnType
  cases hnext : c.next? with
  | none =>
    rw [bind_of_error (peekType_of_none hnext)]
    exact .error id
  | some read =>
    obtain ⟨b, behind⟩ := read
    rw [bind_of_ok (peekType_of_some hnext)]
    dsimp only
    by_cases hb : b = octet 'V'
    · rw [if_pos hb, if_pos hb]
      exact (matches_advance_of_next? hnext).bind_ok
        (.ok _ ((c.next?_eq_some_iff behind b).mp hnext).2.1)
    · rw [if_neg hb, if_neg hb]
      exact (matches_fieldType hboundary).map

/-- What follows a complete descriptor is reported by where it starts. -/
theorem sound_complete {α : Type} (size : Nat) (a : α) (c : Cursor) :
    Sound size (((complete >>= fun _ => pure a) c.buffer).map Prod.fst)
      (Descriptor.complete (a, c)) := by
  have hmore : c.hasMore = true ↔ c.buffer.position < c.buffer.data.length := by
    rw [c.hasMore_iff, Cursor.remaining, Nat.sub_pos_iff_lt]
    rfl
  rw [complete, bind_assoc, get_bind, Descriptor.complete]
  by_cases hrest : c.buffer.position < c.buffer.data.length
  · rw [if_pos hrest, if_pos (hmore.mpr hrest)]
    exact sound_error id
  · rw [if_neg hrest, if_neg (mt hmore.mp hrest)]
    exact sound_ok a

/-- **A method descriptor is read as behind a cursor**, part by part. -/
theorem sound_methodTypes (hboundary : c.OnBoundary) :
    Sound c.data.length ((methodTypes c.buffer).map Prod.fst) (Descriptor.method c) := by
  have heq : Descriptor.method c = orOutOfBounds c.next? >>= fun read =>
      if read.1 = octet '(' then
        Descriptor.params [] read.2 >>= fun ps =>
          Descriptor.returnType ps.2 >>= fun r => Descriptor.complete (⟨ps.1, r.1⟩, r.2)
      else .error .noParenthesis := by
    rw [Descriptor.method]
    cases c.next? <;> rfl
  rw [heq]
  refine (matches_u8 c).sound_bind fun b c₁ hstart hdata₁ => ?_
  have hnext : c.next? = some (b, c₁) := by
    cases hnext : c.next? with
    | none =>
      rw [hnext] at hstart
      cases hstart
    | some read =>
      rw [hnext] at hstart
      cases hstart
      rfl
  dsimp only
  by_cases hb : b = octet '('
  · subst hb
    have hboundary₁ := hboundary.of_next? (by decide) hnext
    simp only [if_true]
    rw [← hdata₁]
    refine (matches_params [] hboundary₁).sound_bind fun ps c₂ hps hdata₂ => ?_
    rw [← hdata₂]
    exact (matches_returnType (onBoundary_of_params hboundary₁ hps)).sound_bind
      fun r c₃ _ _ => sound_complete _ _ c₃
  · rw [if_neg hb, if_neg hb]
    exact sound_error id

end Parts

end BufferReader

/-! ## 4. Whole descriptors -/

open BufferReader

/-- The method types that a text describes, by a run on a bare buffer. -/
def MethodDescriptor.parseBuffer (s : String) : Except (Halt Descriptor.Fault) MethodDescriptor :=
  (methodTypes ⟨Utf8.encode s, 0⟩).map Prod.fst

/-- The value type that a text describes, by a run on a bare buffer. -/
def ValueType.parseBuffer (s : String) : Except (Halt Descriptor.Fault) ValueType :=
  (wholeFieldType ⟨Utf8.encode s, 0⟩).map Prod.fst

theorem onBoundary_ofBytes_encode (s : String) : (Cursor.ofBytes (Utf8.encode s)).OnBoundary :=
  ⟨s, rfl⟩

/-- **A field descriptor is parsed without an operation that lacks a result.** -/
theorem ValueType.sound_parseBuffer (s : String) :
    Sound (Utf8.encode s).length (ValueType.parseBuffer s) (ValueType.parse s) := by
  have hread := matches_fieldType (onBoundary_ofBytes_encode s)
  exact hread.sound_bind fun t d _ _ => sound_complete _ t d

/-- **A method descriptor is parsed without an operation that lacks a result.** -/
theorem MethodDescriptor.sound_parseBuffer (s : String) :
    Sound (Utf8.encode s).length (MethodDescriptor.parseBuffer s) (MethodDescriptor.parse s) :=
  sound_methodTypes (onBoundary_ofBytes_encode s)

end SdkConformance
