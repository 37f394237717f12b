import SdkConformance.Proofs.ClassFile.LayoutReading

/-!
# Class files that are cut off

A reader of class files comes to its verdict, a class or what is damaged, on the octets that it
has passed. More data behind them changes nothing, and less data leaves it without a verdict: it
runs out of data, and is never led to another class or to a fault that is not there.

* `Cursor.extend`: the same place in longer data;
* `ByteReader.Incremental`: a reader whose verdict rests on what it has passed alone, and which
  finds a verdict if there is enough data; `Incremental.bind` for one reader after the other;
* `Incremental.answer_take`, `Incremental.runsOut_iff`: such a reader on data that is cut off;
* `ClassFile.incremental_read`: the reader of class files is one of them.
-/

namespace SdkConformance

/-! ## 1. The same place in longer data -/

/-- The cursor at the same place, where more octets follow the data. -/
def Cursor.extend (c : Cursor) (more : Bytes) : Cursor where
  data := c.data ++ more
  pos := c.pos
  rest := c.rest ++ more
  drop_pos := by rw [List.drop_append_of_le_length c.pos_le, c.drop_pos]
  pos_le := by
    rw [List.length_append]
    exact Nat.le_add_right_of_le c.pos_le

namespace Cursor

@[simp] theorem pos_extend (c : Cursor) (more : Bytes) : (c.extend more).pos = c.pos := rfl

theorem remaining_extend (c : Cursor) (more : Bytes) :
    (c.extend more).remaining = c.remaining + more.length := by
  rw [← length_rest, ← length_rest]
  exact List.length_append

theorem extend_extend (c : Cursor) (more later : Bytes) :
    (c.extend more).extend later = c.extend (more ++ later) :=
  ext' (List.append_assoc ..) rfl

theorem ofBytes_append (data more : Bytes) : ofBytes (data ++ more) = (ofBytes data).extend more :=
  rfl

end Cursor

/-! ## 2. Where a reader stops, and with what -/

namespace ByteReader

section Readers

variable {α β : Type} {r : ByteReader α} {k : α → ByteReader β} {c : Cursor}

/-- Where the reader stops, be it with a value or with a failure. -/
def stop (r : ByteReader α) (c : Cursor) : Cursor :=
  match r c with
  | .ok _ d => d
  | .error _ d => d

/-- The data is too short for the reader. -/
def RunsOut (r : ByteReader α) (c : Cursor) : Prop := r.answer c = .error .outOfBounds

/-- The second reader goes on where the first one stopped with a value. -/
theorem bind_of_ok {a : α} (h : r.answer c = .ok a) :
    (r >>= k).answer c = (k a).answer (r.stop c) ∧ (r >>= k).stop c = (k a).stop (r.stop c) := by
  have hbind : (r >>= k) c = EStateM.bind r k c := rfl
  unfold answer stop at *
  rw [hbind, EStateM.bind]
  cases hr : r c with
  | ok b d => rw [hr] at h; cases h; exact ⟨rfl, rfl⟩
  | error e d => rw [hr] at h; cases h

/-- The second reader does not come to its turn if the first one fails. -/
theorem bind_of_error {e : Error} (h : r.answer c = .error e) :
    (r >>= k).answer c = .error e ∧ (r >>= k).stop c = r.stop c := by
  have hbind : (r >>= k) c = EStateM.bind r k c := rfl
  unfold answer stop at *
  rw [hbind, EStateM.bind]
  cases hr : r c with
  | ok b d => rw [hr] at h; cases h
  | error e' d => rw [hr] at h; cases h; exact ⟨rfl, rfl⟩

theorem eq_ok_of_answer {a : α} (h : r.answer c = .ok a) : r c = .ok a (r.stop c) := by
  unfold answer at h
  unfold stop
  cases hr : r c with
  | ok b d => rw [hr] at h; cases h; rfl
  | error e d => rw [hr] at h; cases h

theorem not_runsOut_of_ok {a : α} (h : r.answer c = .ok a) : ¬ r.RunsOut c := by
  intro hout
  rw [RunsOut, h] at hout
  cases hout

theorem runsOut_bind_iff_of_ok {a : α} (h : r.answer c = .ok a) :
    (r >>= k).RunsOut c ↔ (k a).RunsOut (r.stop c) := by
  rw [RunsOut, RunsOut, (bind_of_ok h).1]

theorem runsOut_bind_iff_of_error {e : Error} (h : r.answer c = .error e) :
    (r >>= k).RunsOut c ↔ r.RunsOut c := by
  rw [RunsOut, RunsOut, (bind_of_error h).1, h, Except.error.injEq, Except.error.injEq]

end Readers

/-! ## 3. Readers whose verdict rests on what they have passed -/

/-- The reader's verdict rests on what it has passed, and enough data brings it to one. -/
structure Incremental {α : Type} (r : ByteReader α) : Prop where
  /-- It stays in its data and does not go back. -/
  forward : ∀ c, (r.stop c).data = c.data ∧ c.pos ≤ (r.stop c).pos
  /-- It fails for damage and for want of data only. -/
  fails : ∀ c e, r.answer c = .error e → e = .outOfBounds ∨ ∃ m, e = .malformed m
  /-- A verdict stands, whatever follows the data. -/
  stands : ∀ (c : Cursor) more, ¬ r.RunsOut c →
    r.answer (c.extend more) = r.answer c ∧ r.stop (c.extend more) = (r.stop c).extend more
  /-- A verdict that the data was too short for takes more than that data. -/
  wants : ∀ (c : Cursor) more, r.RunsOut c → ¬ r.RunsOut (c.extend more) →
    c.size < (r.stop (c.extend more)).pos
  /-- Enough data brings a verdict. -/
  settles : ∀ c : Cursor, ∃ more, ¬ r.RunsOut (c.extend more)

section Composed

variable {α β : Type}

/-- A reader stops inside its data. -/
theorem Incremental.pos_stop_le {r : ByteReader α} (hr : r.Incremental) (c : Cursor) :
    (r.stop c).pos ≤ c.size := by
  have hle := (r.stop c).pos_le
  rw [(hr.forward c).1] at hle
  exact hle

theorem incremental_pure (a : α) : Incremental (pure a : ByteReader α) where
  forward c := ⟨rfl, Nat.le_refl _⟩
  fails c e h := by cases h
  stands c more _ := ⟨rfl, rfl⟩
  wants c more h := absurd h (not_runsOut_of_ok rfl)
  settles c := ⟨[], not_runsOut_of_ok rfl⟩

theorem incremental_malformed (m : Malformation) :
    Incremental (throw (.malformed m) : ByteReader α) where
  forward c := ⟨rfl, Nat.le_refl _⟩
  fails c e h := by cases h; exact Or.inr ⟨m, rfl⟩
  stands c more _ := ⟨rfl, rfl⟩
  wants c more h := by cases h
  settles c := ⟨[], by intro h; cases h⟩

/-- **One reader after the other**: the verdict of the two is that of the first one that fails, or
    that of the second. -/
theorem Incremental.bind {r : ByteReader α} {k : α → ByteReader β} (hr : r.Incremental)
    (hk : ∀ a, (k a).Incremental) : (r >>= k).Incremental where
  forward c := by
    obtain ⟨hdata, hpos⟩ := hr.forward c
    cases h : r.answer c with
    | error e =>
      rw [(bind_of_error h).2]
      exact ⟨hdata, hpos⟩
    | ok a =>
      obtain ⟨hdata', hpos'⟩ := (hk a).forward (r.stop c)
      rw [(bind_of_ok h).2]
      exact ⟨hdata'.trans hdata, Nat.le_trans hpos hpos'⟩
  fails c e he := by
    cases h : r.answer c with
    | error e' =>
      rw [(bind_of_error h).1] at he
      cases he
      exact hr.fails c e h
    | ok a =>
      rw [(bind_of_ok h).1] at he
      exact (hk a).fails _ e he
  stands c more hnot := by
    cases h : r.answer c with
    | error e =>
      rw [runsOut_bind_iff_of_error h] at hnot
      obtain ⟨hanswer, hstop⟩ := hr.stands c more hnot
      have hmore := bind_of_error (k := k) (hanswer.trans h)
      rw [hmore.1, hmore.2, (bind_of_error h).1, (bind_of_error h).2]
      exact ⟨rfl, hstop⟩
    | ok a =>
      rw [runsOut_bind_iff_of_ok h] at hnot
      obtain ⟨hanswer, hstop⟩ := hr.stands c more (not_runsOut_of_ok h)
      have hmore := bind_of_ok (k := k) (hanswer.trans h)
      rw [hmore.1, hmore.2, (bind_of_ok h).1, (bind_of_ok h).2, hstop]
      exact (hk a).stands _ more hnot
  wants c more hout hnot := by
    cases h : r.answer c with
    | error e =>
      rw [runsOut_bind_iff_of_error h] at hout
      -- with more data the first reader has a verdict, or the two would run out again
      cases hmore : r.answer (c.extend more) with
      | error e' =>
        rw [runsOut_bind_iff_of_error hmore] at hnot
        rw [(bind_of_error hmore).2]
        exact hr.wants c more hout hnot
      | ok a =>
        have hfirst := hr.wants c more hout (not_runsOut_of_ok hmore)
        rw [(bind_of_ok hmore).2]
        exact Nat.lt_of_lt_of_le hfirst ((hk a).forward _).2
    | ok a =>
      obtain ⟨hanswer, hstop⟩ := hr.stands c more (not_runsOut_of_ok h)
      have hmore := hanswer.trans h
      have hsize : (r.stop c).size = c.size := congrArg List.length (hr.forward c).1
      rw [runsOut_bind_iff_of_ok h] at hout
      rw [runsOut_bind_iff_of_ok hmore, hstop] at hnot
      rw [(bind_of_ok hmore).2, hstop, ← hsize]
      exact (hk a).wants _ more hout hnot
  settles c := by
    obtain ⟨more, hnot⟩ := hr.settles c
    cases h : r.answer (c.extend more) with
    | error e =>
      exact ⟨more, (runsOut_bind_iff_of_error h).not.mpr hnot⟩
    | ok a =>
      obtain ⟨later, hlater⟩ := (hk a).settles (r.stop (c.extend more))
      obtain ⟨hanswer, hstop⟩ := hr.stands _ later hnot
      refine ⟨more ++ later, ?_⟩
      rw [← Cursor.extend_extend, runsOut_bind_iff_of_ok (hanswer.trans h), hstop]
      exact hlater

/-- A reader of which the value is made into another one. -/
theorem Incremental.map {r : ByteReader α} (hr : r.Incremental) (make : α → β) :
    (r >>= fun a => pure (make a)).Incremental :=
  hr.bind fun a => incremental_pure (make a)

/-- A reader that goes by an answer that is there already. -/
theorem incremental_of_except {ε : Type} {x : Except ε α} {f : α → β} {r : ByteReader β}
    (hok : ∀ a, x = .ok a → r = pure (f a))
    (herror : ∀ e, x = .error e → ∃ m, r = throw (.malformed m)) : r.Incremental := by
  cases x with
  | ok a =>
    rw [hok a rfl]
    exact incremental_pure (f a)
  | error e =>
    obtain ⟨m, rfl⟩ := herror e rfl
    exact incremental_malformed m

end Composed

/-! ## 4. Single reads -/

theorem octets_of_le {n : Nat} {c : Cursor} (h : n ≤ c.remaining) :
    ∃ d : Cursor, octets n c = .ok (c.rest.take n) d ∧ d.data = c.data ∧ d.pos = c.pos + n := by
  obtain ⟨d, hd, hmoved⟩ := Cursor.exists_advance? h
  refine ⟨d, ?_, hmoved⟩
  rw [octets, ofCursor_eq_ok_iff, Cursor.take?, hd]
  rfl

theorem octets_of_lt {n : Nat} {c : Cursor} (h : c.remaining < n) :
    octets n c = .error .outOfBounds c := by
  rw [octets, ofCursor, (c.take?_eq_none_iff n).mpr h]

theorem runsOut_octets_iff {n : Nat} {c : Cursor} : (octets n).RunsOut c ↔ c.remaining < n := by
  constructor
  · intro hout
    by_contra hge
    obtain ⟨d, hd, -⟩ := octets_of_le (Nat.not_lt.mp hge)
    rw [RunsOut, answer, hd] at hout
    cases hout
  · intro hlt
    rw [RunsOut, answer, octets_of_lt hlt]

theorem incremental_octets (n : Nat) : (octets n).Incremental where
  forward c := by
    rcases Nat.lt_or_ge c.remaining n with hlt | hle
    · rw [stop, octets_of_lt hlt]
      exact ⟨rfl, Nat.le_refl _⟩
    · obtain ⟨d, hd, hdata, hpos⟩ := octets_of_le hle
      rw [stop, hd]
      exact ⟨hdata, hpos ▸ Nat.le_add_right _ _⟩
  fails c e he := by
    rcases Nat.lt_or_ge c.remaining n with hlt | hle
    · rw [answer, octets_of_lt hlt] at he
      cases he
      exact Or.inl rfl
    · obtain ⟨d, hd, -⟩ := octets_of_le hle
      rw [answer, hd] at he
      cases he
  stands c more hnot := by
    rw [runsOut_octets_iff, Nat.not_lt] at hnot
    have hmore : n ≤ (c.extend more).remaining := by
      rw [Cursor.remaining_extend]
      exact Nat.le_add_right_of_le hnot
    obtain ⟨d, hd, hdata, hpos⟩ := octets_of_le hnot
    obtain ⟨e, he, hdata', hpos'⟩ := octets_of_le hmore
    rw [answer, answer, stop, stop, hd, he]
    refine ⟨congrArg Except.ok ?_, Cursor.ext' ?_ ?_⟩
    · rw [← c.length_rest] at hnot
      exact List.take_append_of_le_length hnot
    · rw [hdata']
      show c.data ++ more = d.data ++ more
      rw [hdata]
    · rw [hpos', Cursor.pos_extend, Cursor.pos_extend, hpos]
  wants c more hout hnot := by
    rw [runsOut_octets_iff] at hout
    rw [runsOut_octets_iff, Nat.not_lt] at hnot
    obtain ⟨e, he, -, hpos⟩ := octets_of_le hnot
    have hsize := c.pos_add_remaining
    rw [stop, he]
    show c.size < e.pos
    rw [hpos, Cursor.pos_extend]
    omega
  settles c := by
    refine ⟨List.replicate n 0, ?_⟩
    rw [runsOut_octets_iff, Cursor.remaining_extend, List.length_replicate]
    omega

/-- Passing octets is reading them and dropping them. -/
theorem skip_eq_octets (n : Nat) : skip n = octets n >>= fun _ => pure () := by
  funext c
  show skip n c = EStateM.bind (octets n) _ c
  rw [skip, octets, EStateM.bind, ofCursor, ofCursor, Cursor.take?]
  cases c.advance? n <;> rfl

theorem unsigned_eq_octets (width : Nat) :
    unsigned width = octets width >>= fun bs => pure (Bytes.bigEndian bs) := by
  funext c
  show unsigned width c = EStateM.bind (octets width) _ c
  rw [unsigned, octets, EStateM.bind, ofCursor, ofCursor, Cursor.unsigned?]
  cases c.take? width <;> rfl

theorem u8_eq_octets : u8 = octets 1 >>= fun bs => pure (bs.headD 0) := by
  funext c
  show u8 c = EStateM.bind (octets 1) _ c
  rw [u8, octets, EStateM.bind, ofCursor, ofCursor]
  cases h : c.next? with
  | none =>
    have hshort : c.remaining < 1 := by
      rw [← c.length_rest, (c.next?_eq_none_iff).mp h]
      exact Nat.one_pos
    rw [(c.take?_eq_none_iff 1).mpr hshort]
  | some read =>
    obtain ⟨b, d⟩ := read
    have htake : c.take? 1 = some ([b], d) :=
      (c.take?_eq_some_iff d 1 [b]).mpr ⟨rfl, (c.next?_eq_some_iff d b).mp h⟩
    rw [htake]
    rfl

theorem incremental_skip (n : Nat) : (skip n).Incremental := by
  rw [skip_eq_octets]
  exact (incremental_octets n).map _

theorem incremental_u8 : u8.Incremental := by
  rw [u8_eq_octets]
  exact (incremental_octets 1).map _

theorem incremental_unsigned (width : Nat) : (unsigned width).Incremental := by
  rw [unsigned_eq_octets]
  exact (incremental_octets width).map _

theorem incremental_u16 : u16.Incremental := (incremental_unsigned 2).map _

theorem incremental_u32 : u32.Incremental := (incremental_unsigned 4).map _

theorem incremental_modifiedUtf8 (n : Nat) : (modifiedUtf8 n).Incremental := by
  rw [modifiedUtf8]
  refine (incremental_octets n).bind fun bs =>
    @incremental_of_except _ _ _ (ModifiedUtf8.decode bs) id _ (fun s hs => ?_) fun fault hf =>
      ⟨.undecodable fault, ?_⟩
  · rw [hs]; rfl
  · rw [hf]

/-! ## 5. Data that is cut off -/

section Cut

variable {α : Type} {r : ByteReader α} {data : Bytes}

/-- **Data that is cut off gives the same verdict or none**: none exactly if it is cut off before
    the place where the verdict falls. -/
theorem Incremental.answer_take (hr : r.Incremental) (hnot : ¬ r.RunsOut (.ofBytes data))
    (n : Nat) :
    r.answer (.ofBytes (data.take n)) =
      if n < (r.stop (.ofBytes data)).pos then .error .outOfBounds
      else r.answer (.ofBytes data) := by
  have hwhole : (Cursor.ofBytes (data.take n)).extend (data.drop n) = .ofBytes data := by
    rw [← Cursor.ofBytes_append, List.take_append_drop]
  have hle := hr.pos_stop_le (.ofBytes data)
  change _ ≤ data.length at hle
  have hsize : (Cursor.ofBytes (data.take n)).size = min n data.length := List.length_take
  split
  case isTrue hlt =>
    by_contra hverdict
    -- the verdict on the part would stand, and fall inside the part
    have hstop := (hr.stands _ (data.drop n) hverdict).2
    have hpart := hr.pos_stop_le (.ofBytes (data.take n))
    rw [hwhole] at hstop
    rw [hstop, Cursor.pos_extend] at hlt
    omega
  case isFalse hge =>
    have hverdict : ¬ r.RunsOut (.ofBytes (data.take n)) := by
      intro hout
      have hwant := hr.wants _ (data.drop n) hout (hwhole ▸ hnot)
      rw [hwhole] at hwant
      omega
    have hsame := (hr.stands _ (data.drop n) hverdict).1
    rw [hwhole] at hsame
    exact hsame.symm

/-- A reader runs out of data exactly where the data is the beginning of longer data on which a
    verdict falls behind that beginning. -/
theorem Incremental.runsOut_iff (hr : r.Incremental) :
    r.RunsOut (.ofBytes data) ↔ ∃ more, ¬ r.RunsOut (.ofBytes (data ++ more)) ∧
      data.length < (r.stop (.ofBytes (data ++ more))).pos := by
  constructor
  · intro hout
    obtain ⟨more, hnot⟩ := hr.settles (.ofBytes data)
    exact ⟨more, hnot, hr.wants _ more hout hnot⟩
  · intro hx
    obtain ⟨more, -, hlt⟩ := hx
    by_contra hnot
    have hstop := (hr.stands _ more hnot).2
    rw [Cursor.ofBytes_append, hstop, Cursor.pos_extend] at hlt
    exact absurd (hr.pos_stop_le (.ofBytes data)) (Nat.not_le.mpr hlt)

end Cut

end ByteReader

/-! ## 6. The parts of a class file -/

open ByteReader

theorem ConstantPool.incremental_readSlots (count missing : Nat) (done : Array Constant) :
    (readSlots count missing done).Incremental := by
  -- an entry that takes two slots leaves two less to be filled
  induction missing using Nat.strongRecOn generalizing done with
  | ind missing ih =>
    cases missing with
    | zero =>
      rw [readSlots]
      exact incremental_pure done
    | succ missing =>
      have hrest := ih missing (Nat.lt_succ_self _)
      rw [readSlots]
      refine incremental_u8.bind fun tag => ?_
      cases Payload.ofTag? tag with
      | none => exact incremental_malformed _
      | some form =>
        cases form with
        | text =>
          exact incremental_u16.bind fun length => (incremental_modifiedUtf8 _).bind fun text =>
            hrest _
        | classRef => exact incremental_u16.bind fun nameIndex => hrest _
        | opaqueOctets n => exact (incremental_skip n).bind fun _ => hrest _
        | wide =>
          cases missing with
          | zero => exact incremental_malformed _
          | succ missing => exact (incremental_skip 8).bind fun _ => ih missing (by omega) _

theorem ConstantPool.incremental_read : ConstantPool.read.Incremental := by
  rw [ConstantPool.read]
  refine incremental_u16.bind fun count => ?_
  cases count.toNat with
  | zero => exact incremental_malformed _
  | succ missing => exact (incremental_readSlots _ _ _).map _

namespace ClassFile

theorem incremental_skipAttributes (n : Nat) : (skipAttributes n).Incremental := by
  induction n with
  | zero => exact incremental_pure ()
  | succ n ih =>
    exact (incremental_skip 2).bind fun _ => incremental_u32.bind fun length =>
      (incremental_skip _).bind fun _ => ih

theorem incremental_skipAttributeTable : skipAttributeTable.Incremental :=
  incremental_u16.bind fun _ => incremental_skipAttributes _

theorem incremental_skipFields (n : Nat) : (skipFields n).Incremental := by
  induction n with
  | zero => exact incremental_pure ()
  | succ n ih =>
    exact (incremental_skip 6).bind fun _ => incremental_skipAttributeTable.bind fun _ => ih

theorem incremental_resolved {α : Type} (found : Except Malformation α) :
    (resolved found).Incremental := by
  cases found with
  | ok a => exact incremental_pure a
  | error m => exact incremental_malformed m

section Methods

variable (pool : ConstantPool) (className : String)

/-- A descriptor that cannot be read is damage, also where it ends too early. -/
theorem incremental_readMethod : (readMethod pool className).Incremental := by
  rw [readMethod]
  refine incremental_u16.bind fun access => incremental_u16.bind fun nameIndex =>
    (incremental_resolved _).bind fun name => incremental_u16.bind fun descriptorIndex =>
    (incremental_resolved _).bind fun descriptor => incremental_skipAttributeTable.bind fun _ =>
    @incremental_of_except _ _ _ (MethodDescriptor.parse descriptor)
      (fun types => ⟨name, descriptor, ⟨access⟩, types⟩) _ (fun types ht => ?_) fun fault hf =>
      ⟨.methodDescriptor descriptor className name fault, ?_⟩
  · rw [ht]
  · rw [hf]

theorem incremental_readMethods (n : Nat) (done : List MethodEntry) :
    (readMethods pool className n done).Incremental := by
  induction n generalizing done with
  | zero => exact incremental_pure _
  | succ n ih => exact (incremental_readMethod pool className).bind fun m => ih (m :: done)

end Methods

theorem incremental_readSuper (pool : ConstantPool) (index : UInt16) :
    (readSuper pool index).Incremental := by
  unfold readSuper
  split
  · exact incremental_pure none
  · exact incremental_resolved _

theorem incremental_readTables (pool : ConstantPool) (className : String) :
    (readTables pool className).Incremental :=
  incremental_u16.bind fun _ => (incremental_skip _).bind fun _ =>
    incremental_u16.bind fun _ => (incremental_skipFields _).bind fun _ =>
    incremental_u16.bind fun _ => incremental_readMethods pool className _ []

theorem incremental_readVersioned : readVersioned.Incremental :=
  incremental_u16.bind fun _ => incremental_u16.bind fun _ =>
    ConstantPool.incremental_read.bind fun pool => incremental_u16.bind fun _ =>
    incremental_u16.bind fun _ => (incremental_resolved _).bind fun name =>
    incremental_u16.bind fun _ => (incremental_readSuper pool _).bind fun _ =>
    (incremental_readTables pool name).map _

/-- **The reader of class files comes to its verdict on what it has passed.** -/
theorem incremental_read : read.Incremental := by
  rw [read_eq]
  refine incremental_u32.bind fun start => ?_
  split
  · exact incremental_readVersioned
  · exact incremental_malformed _

/-! ## 7. Class files that go on or are cut off -/

/-- How many octets are passed until the verdict falls. -/
def decodedLength (data : Bytes) : Nat := (read.stop (.ofBytes data)).pos

/-- The verdict that octets hold a class falls at the end of the table of methods. -/
theorem exists_layout_of_parse {data : Bytes} {c : ClassFile} (h : parse data = .ok c) :
    ∃ (l : ClassLayout) (rest : Bytes), data = l.octets ++ rest ∧ l.Shows c ∧
      decodedLength data = l.octets.length := by
  obtain ⟨_, ⟨l, rfl, hl⟩, hdata, -, hpos⟩ := (accepts_read _ _ _).mp (eq_ok_of_answer h)
  refine ⟨l, (read.stop (.ofBytes data)).rest, hdata, hl, ?_⟩
  rw [decodedLength, hpos, Cursor.pos_ofBytes, Nat.zero_add]

/-- Every beginning of octets with a verdict has that verdict, or is too short for it. -/
theorem parse_take {data : Bytes} (h : parse data ≠ .error .outOfBounds) (n : Nat) :
    parse (data.take n) =
      if n < decodedLength data then .error .outOfBounds else parse data :=
  incremental_read.answer_take h n

/-- **A verdict stands for all data that starts with the octets it rests on, and no other one falls
    before**: a class, which ends with its table of methods, or what is damaged. Every failure is
    damage or want of data, and data is wanting exactly where the octets are the beginning of longer
    data on which a verdict falls behind them. -/
theorem parse_append_and_take (data : Bytes) :
    (∀ e, parse data = .error e → e = .outOfBounds ∨ ∃ m, e = .malformed m) ∧
    (∀ c, parse data = .ok c → ∀ more, parse (data ++ more) = .ok c) ∧
    (∀ m, parse data = .error (.malformed m) →
      ∀ more, parse (data ++ more) = .error (.malformed m)) ∧
    (∀ c, parse data = .ok c →
      (∃ (l : ClassLayout) (rest : Bytes), data = l.octets ++ rest ∧ l.Shows c ∧
        decodedLength data = l.octets.length) ∧
      ∀ n, parse (data.take n) = if n < decodedLength data then .error .outOfBounds else .ok c) ∧
    (∀ m, parse data = .error (.malformed m) → ∀ n, parse (data.take n) =
      if n < decodedLength data then .error .outOfBounds else .error (.malformed m)) ∧
    (parse data = .error .outOfBounds ↔ ∃ more, parse (data ++ more) ≠ .error .outOfBounds ∧
      data.length < decodedLength (data ++ more)) := by
  have hstands : parse data ≠ .error .outOfBounds → ∀ more, parse (data ++ more) = parse data :=
    fun hnot more => (incremental_read.stands (.ofBytes data) more hnot).1
  refine ⟨incremental_read.fails _, fun c hc more => ?_, fun m hm more => ?_, fun c hc => ?_,
    fun m hm n => ?_, incremental_read.runsOut_iff⟩
  · rw [hstands (not_runsOut_of_ok hc), hc]
  · rw [hstands (by rw [hm]; simp), hm]
  · refine ⟨exists_layout_of_parse hc, fun n => ?_⟩
    rw [parse_take (not_runsOut_of_ok hc), hc]
  · rw [parse_take (by rw [hm]; simp), hm]

/-- The class `a/B` without a parent, interfaces, fields and methods. -/
def bareClass : Bytes :=
  [0xCA, 0xFE, 0xBA, 0xBE, 0x00, 0x00, 0x00, 0x34, 0x00, 0x03,
   0x01, 0x00, 0x03, 0x61, 0x2F, 0x42, 0x07, 0x00, 0x01,
   0x00, 0x21, 0x00, 0x02, 0x00, 0x00, 0x00, 0x00, 0x00, 0x00, 0x00, 0x00]

/-- A class is found whatever follows it, and not without its last octet; a wrong first number is
    found whatever follows it, and not in its first three octets. -/
theorem parse_bareClass_and_noClass :
    (∀ more, parse (bareClass ++ more) = .ok ⟨0, 52, ⟨0x21⟩, "a.B", none, []⟩) ∧
    parse (bareClass.take 30) = .error .outOfBounds ∧
    (∀ more, parse ([0, 0, 0, 0] ++ more) = .error (.malformed (.magic 0))) ∧
    parse ([0, 0, 0, 0].take 3) = .error .outOfBounds := by
  have hclass : parse bareClass = .ok ⟨0, 52, ⟨0x21⟩, "a.B", none, []⟩ := by decide +kernel
  have hmagic : parse [0, 0, 0, 0] = .error (.malformed (.magic 0)) := by decide +kernel
  have hlength : decodedLength bareClass = 31 := by decide +kernel
  have hfour : decodedLength [0, 0, 0, 0] = 4 := by decide +kernel
  refine ⟨(parse_append_and_take bareClass).2.1 _ hclass, ?_,
    (parse_append_and_take [0, 0, 0, 0]).2.2.1 _ hmagic, ?_⟩
  · rw [((parse_append_and_take bareClass).2.2.2.1 _ hclass).2 30, hlength]
    rfl
  · rw [(parse_append_and_take [0, 0, 0, 0]).2.2.2.2.1 _ hmagic 3, hfour]
    rfl

end ClassFile

end SdkConformance
