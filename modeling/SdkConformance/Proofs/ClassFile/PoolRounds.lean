import Mathlib.Algebra.Ring.Nat
import Mathlib.Data.List.Chain
import SdkConformance.Proofs.ClassFile.PoolReading

/-!
# The loop over the constants of a pool

A pool is read in rounds. A round reads one constant and appends its slots, as long as there are
less slots than were announced.

* `PoolEntry.size`, `PoolEntry.constant`: the octets of a constant, and what its own slot holds;
* `ConstantPool.readConstant`: the body of the loop; `readSlots_eq_readConstant`: the reader of
  slots is the loop around it;
* `PoolState.Rounds`: so many rounds from one state to another; `rounds_iff`: they pass so many
  entries, and nothing else;
* `ConstantPool.read_eq_of_stops`: a pool is read as the loop stops;
* `read_pool`: where a pool is read, what it holds then, and how the loop comes to its end.
-/

namespace SdkConformance

/-! ## 1. Entries -/

namespace PoolEntry

/-- How many octets the constant is written as. -/
def size : PoolEntry → Nat
  | text octets .. => 3 + octets.length
  | classRef _ => 3
  | wide .. => 9
  | plain kind .. => 1 + kind.size

/-- How many slots the constant takes. -/
def slotWidth : PoolEntry → Nat
  | wide .. => 2
  | text .. | classRef _ | plain .. => 1

/-- What the slot of the constant holds. -/
def constant : PoolEntry → Constant
  | text _ s .. => .utf8 s
  | classRef nameIndex => .classRef nameIndex
  | wide kind .. => .other kind.tag
  | plain kind .. => .other kind.tag

theorem length_octets (e : PoolEntry) : e.octets.length = e.size := by
  rw [octets, List.length_cons]
  cases e with
  | text octets =>
    rw [payload, size, List.length_append, Bytes.length_ofNatBigEndian]
    omega
  | classRef nameIndex => rw [payload, size, Bytes.length_ofUInt16]
  | wide kind octets hlen => rw [payload, size, hlen]
  | plain kind octets hlen => rw [payload, size, hlen, Nat.add_comm]

theorem length_flatMap_octets (es : List PoolEntry) :
    (es.flatMap octets).length = (es.map size).sum := by
  rw [List.length_flatMap]
  exact congrArg List.sum (List.map_congr_left fun e _ => e.length_octets)

theorem length_slots (e : PoolEntry) : e.slots.length = e.slotWidth := by
  cases e <;> rfl

theorem length_flatMap_slots (es : List PoolEntry) :
    (es.flatMap slots).length = (es.map slotWidth).sum := by
  rw [List.length_flatMap]
  exact congrArg List.sum (List.map_congr_left fun e _ => e.length_slots)

end PoolEntry

/-- A constant that takes two slots. -/
def Constant.Wide (c : Constant) : Prop := c = .other 5 ∨ c = .other 6

theorem WideKind.wide_tag (kind : WideKind) : Constant.Wide (.other kind.tag) := by
  cases kind with
  | long => exact Or.inl rfl
  | double => exact Or.inr rfl

theorem OpaqueKind.not_wide_tag (kind : OpaqueKind) : ¬ Constant.Wide (.other kind.tag) := by
  unfold Constant.Wide
  cases kind <;> decide

/-- The slots that cannot be used are those behind a constant that takes two. -/
theorem isChain_slots {x : Constant} (hx : ¬ x.Wide) (es : List PoolEntry) :
    List.IsChain (fun a b : Constant => b = .unusable ↔ a.Wide)
      (x :: es.flatMap PoolEntry.slots) := by
  induction es generalizing x with
  | nil => exact .singleton x
  | cons e es ih =>
    rw [List.flatMap_cons]
    cases e with
    | text => exact .cons_cons ⟨nofun, fun h => absurd h hx⟩ (ih (by simp [Constant.Wide]))
    | classRef => exact .cons_cons ⟨nofun, fun h => absurd h hx⟩ (ih (by simp [Constant.Wide]))
    | wide kind =>
      exact .cons_cons ⟨nofun, fun h => absurd h hx⟩
        (.cons_cons ⟨fun _ => kind.wide_tag, fun _ => rfl⟩ (ih (by simp [Constant.Wide])))
    | plain kind => exact .cons_cons ⟨nofun, fun h => absurd h hx⟩ (ih kind.not_wide_tag)

/-- The slots that can be used are those of the constants themselves. -/
theorem filter_slots (es : List PoolEntry) :
    (es.flatMap PoolEntry.slots).filter (· ≠ .unusable) = es.map PoolEntry.constant := by
  induction es with
  | nil => rfl
  | cons e es ih =>
    rw [List.flatMap_cons, List.filter_append, ih]
    cases e <;> rfl

/-! ## 2. Rounds -/

/-- How many slots a constant with this payload takes. -/
def Payload.slotWidth : Payload → Nat
  | wide => 2
  | text | classRef | opaqueOctets _ => 1

namespace ConstantPool

open ByteReader

/-- The body of the loop: reads one constant and appends its slots. -/
def readConstant (count : Nat) (slots : Array Constant) : ByteReader (Array Constant) := do
  let tag ← u8
  match Payload.ofTag? tag with
  | none => throw (.malformed (.constantTag tag slots.size))
  | some .text =>
    let length ← u16
    let text ← modifiedUtf8 length.toNat
    return slots.push (.utf8 text)
  | some .classRef =>
    let nameIndex ← u16
    return slots.push (.classRef nameIndex)
  | some (.opaqueOctets n) =>
    skip n
    return slots.push (.other tag)
  | some .wide =>
    if slots.size + 1 < count then
      skip 8
      return (slots.push (.other tag)).push .unusable
    else
      throw (.malformed (.wideConstant slots.size count))

section Body

variable {count : Nat} {slots : Array Constant}

/-- With no slot missing, the loop is over. -/
theorem readSlots_of_full (h : slots.size = count) :
    readSlots count (count - slots.size) slots = pure slots := by
  rw [h, Nat.sub_self, readSlots]

/-- **With a slot missing, the loop performs its body and goes on with the slots it leaves.** -/
theorem readSlots_eq_readConstant (h : slots.size < count) :
    readSlots count (count - slots.size) slots =
      readConstant count slots >>= fun later => readSlots count (count - later.size) later := by
  obtain ⟨missing, hmissing⟩ : ∃ missing, count - slots.size = missing + 1 :=
    Nat.exists_eq_add_one.mpr (Nat.sub_pos_of_lt h)
  have hone : ∀ c, count - (slots.push c).size = missing := by
    intro c
    rw [Array.size_push]
    omega
  rw [hmissing, readSlots, readConstant, bind_assoc]
  refine congrArg (u8 >>= ·) (funext fun tag => ?_)
  cases Payload.ofTag? tag with
  | none => rfl
  | some form =>
    cases form with
    | text => simp only [bind_assoc, pure_bind, hone]
    | classRef => simp only [bind_assoc, pure_bind, hone]
    | opaqueOctets n => simp only [bind_assoc, pure_bind, hone]
    | wide =>
      cases missing with
      | zero =>
        rw [if_neg (by omega)]
        rfl
      | succ missing =>
        have htwo : count - ((slots.push (.other tag)).push .unusable).size = missing := by
          rw [Array.size_push, Array.size_push]
          omega
        rw [if_pos (by omega)]
        simp only [bind_assoc, pure_bind, htwo]

/-- A tag tells how many slots its constants take. -/
theorem slotWidth_of_tag {tag : UInt8} {form : Payload} (htag : Payload.ofTag? tag = some form)
    {e : PoolEntry} (he : e.tag = tag) : e.slotWidth = form.slotWidth := by
  obtain rfl : e.form = form := by
    rw [← he, Payload.ofTag?_tag] at htag
    exact Option.some.inj htag
  cases e <;> rfl

/-- So many slots as one constant of this tag takes are filled by one constant. -/
theorem fillsAfter_iff {tag : UInt8} {form : Payload} (htag : Payload.ofTag? tag = some form)
    {done : List Constant} {bs : Bytes} {later : Array Constant} :
    FillsAfter form.slotWidth done tag bs later ↔
      ∃ e : PoolEntry, e.tag = tag ∧ later.toList = done ++ e.slots ∧ bs = e.payload := by
  have hcount : ∀ e : PoolEntry, e.tag = tag → form.slotWidth = 0 + e.slots.length := by
    intro e he
    rw [Nat.zero_add, e.length_slots, slotWidth_of_tag htag he]
  constructor
  · intro h
    obtain ⟨e, es, rfl, hfills⟩ := h
    rw [hcount e rfl] at hfills
    obtain ⟨cs, rfl, hcs⟩ := fills_cons_iff.mp hfills
    obtain ⟨-, rfl, hlater⟩ := fills_zero_iff.mp hcs
    exact ⟨e, rfl, hlater, List.append_nil _⟩
  · intro h
    obtain ⟨e, rfl, hlater, rfl⟩ := h
    refine ⟨e, [], rfl, ?_⟩
    rw [hcount e rfl]
    exact fills_cons_iff.mpr ⟨[], (List.append_nil _).symm, fills_zero_iff.mpr ⟨rfl, rfl, hlater⟩⟩

/-- What follows this tag, where it is that of a constant for which there is room. -/
def Fits (count : Nat) (slots : Array Constant) (tag : UInt8) (bs : Bytes)
    (later : Array Constant) : Prop :=
  ∃ e : PoolEntry, e.tag = tag ∧ slots.size + e.slotWidth ≤ count ∧
    later.toList = slots.toList ++ e.slots ∧ bs = e.payload

/-- Where there is room for a constant of this tag, what fills its slots is such a constant. -/
theorem fits_of_fillsAfter {tag : UInt8} {form : Payload}
    (htag : Payload.ofTag? tag = some form) (hroom : slots.size + form.slotWidth ≤ count)
    {r : ByteReader (Array Constant)}
    (hr : r.Accepts (FillsAfter form.slotWidth slots.toList tag)) :
    r.Accepts (Fits count slots tag) := by
  refine hr.congr fun bs later => (fillsAfter_iff htag).trans (exists_congr fun e => ?_)
  refine and_congr_right fun he => (and_iff_right ?_).symm
  rw [slotWidth_of_tag htag he]
  exact hroom

/-- **A round passes one constant for which there is room, and appends its slots.** -/
theorem accepts_readConstant (h : slots.size < count) :
    (readConstant count slots).Accepts fun bs later => ∃ e : PoolEntry,
      slots.size + e.slotWidth ≤ count ∧ later.toList = slots.toList ++ e.slots ∧
        bs = e.octets := by
  rw [readConstant]
  refine (accepts_u8.bind fun tag => (?_ : Accepts _ (Fits count slots tag))).congr
    fun bs later => ?_
  · cases htag : Payload.ofTag? tag with
    | none =>
      refine (accepts_throw _).congr fun bs later => ⟨False.elim, fun hx => ?_⟩
      obtain ⟨e, rfl, -⟩ := hx
      rw [Payload.ofTag?_tag] at htag
      cases htag
    | some form =>
      cases form with
      | text => exact fits_of_fillsAfter htag h (accepts_text htag (accepts_readSlots count 0))
      | classRef =>
        exact fits_of_fillsAfter htag h (accepts_classRef htag (accepts_readSlots count 0))
      | opaqueOctets n =>
        exact fits_of_fillsAfter htag h (accepts_opaqueOctets htag (accepts_readSlots count 0))
      | wide =>
        by_cases hroom : slots.size + 1 < count
        · simp only [hroom, if_true]
          exact fits_of_fillsAfter htag hroom (accepts_wide htag (accepts_readSlots count 0))
        · simp only [hroom, if_false]
          refine (accepts_throw _).congr fun bs later => ⟨False.elim, fun hx => ?_⟩
          obtain ⟨e, he, hle, -⟩ := hx
          rw [slotWidth_of_tag htag he] at hle
          exact absurd hle hroom
  · constructor
    · intro hx
      obtain ⟨_, tag, cs, rfl, rfl, e, rfl, hle, hlater, rfl⟩ := hx
      exact ⟨e, hle, hlater, rfl⟩
    · intro hx
      obtain ⟨e, hle, hlater, rfl⟩ := hx
      exact ⟨[e.tag], e.tag, e.payload, rfl, rfl, e, rfl, hle, hlater, rfl⟩

/-- In the last slot, a constant that takes two is refused as soon as its tag was passed. -/
theorem readConstant_wide_last (h : slots.size + 1 = count) (kind : WideKind) {c d : Cursor}
    (hpasses : c.Passes [kind.tag] d) :
    readConstant count slots c = .error (.malformed (.wideConstant slots.size count)) d := by
  have htag : u8 c = .ok kind.tag d := (accepts_u8 c kind.tag d).mpr ⟨_, rfl, hpasses⟩
  have hform : Payload.ofTag? kind.tag = some .wide := by cases kind <;> rfl
  show EStateM.bind _ _ c = _
  unfold EStateM.bind
  simp only [htag, hform, h, Nat.lt_irrefl, if_false]
  rfl

end Body

end ConstantPool

/-- Where the loop stands: the slots so far, and the cursor. -/
structure PoolState where
  slots : Array Constant
  cursor : Cursor

namespace PoolState

variable {count n : Nat} {s t u : PoolState}

/-- One round: a slot is missing, and the body of the loop reads a constant. -/
structure Round (count : Nat) (s t : PoolState) : Prop where
  missing : s.slots.size < count
  read : ConstantPool.readConstant count s.slots s.cursor = .ok t.slots t.cursor

/-- So many rounds, one after the other. -/
inductive Rounds (count : Nat) : Nat → PoolState → PoolState → Prop
  | none (s : PoolState) : Rounds count 0 s s
  | more {n : Nat} {s t u : PoolState} (first : Round count s t) (rest : Rounds count n t u) :
    Rounds count (n + 1) s u

/-- **The invariant**: the second state is the first one, moved behind some entries that fill the
    slots in between, and there are not more slots than were announced. -/
structure Passed (count : Nat) (es : List PoolEntry) (s t : PoolState) : Prop where
  size_le : t.slots.size ≤ count
  slots_eq : t.slots.toList = s.slots.toList ++ es.flatMap PoolEntry.slots
  passes : s.cursor.Passes (es.flatMap PoolEntry.octets) t.cursor

theorem Passed.size_eq {es : List PoolEntry} (h : Passed count es s t) :
    t.slots.size = s.slots.size + (es.map PoolEntry.slotWidth).sum := by
  rw [← Array.length_toList, h.slots_eq, List.length_append, Array.length_toList,
    PoolEntry.length_flatMap_slots]

theorem passed_nil_iff : Passed count [] s t ↔ t = s ∧ s.slots.size ≤ count := by
  constructor
  · intro h
    have hslots : t.slots = s.slots :=
      Array.toList_inj.mp (h.slots_eq.trans (List.append_nil _))
    have hcursor : t.cursor = s.cursor := Cursor.passes_nil_iff.mp h.passes
    refine ⟨?_, hslots ▸ h.size_le⟩
    cases s
    cases t
    exact congr (congrArg PoolState.mk hslots) hcursor
  · intro h
    obtain ⟨rfl, hle⟩ := h
    exact ⟨hle, (List.append_nil _).symm, Cursor.passes_nil_iff.mpr rfl⟩

/-- One entry is passed as it is written. -/
theorem passed_singleton_iff {e : PoolEntry} : Passed count [e] s t ↔
    s.slots.size + e.slotWidth ≤ count ∧ t.slots.toList = s.slots.toList ++ e.slots ∧
      s.cursor.Passes e.octets t.cursor := by
  have hslots : [e].flatMap PoolEntry.slots = e.slots := List.flatMap_singleton _ e
  have hoctets : [e].flatMap PoolEntry.octets = e.octets := List.flatMap_singleton _ e
  constructor
  · intro h
    have hsize := h.size_eq
    rw [List.map_singleton, List.sum_singleton] at hsize
    exact ⟨hsize ▸ h.size_le, hslots ▸ h.slots_eq, hoctets ▸ h.passes⟩
  · intro h
    obtain ⟨hle, htoList, hpasses⟩ := h
    refine ⟨?_, hslots.symm ▸ htoList, hoctets.symm ▸ hpasses⟩
    rw [← Array.length_toList, htoList, List.length_append, e.length_slots]
    exact hle

/-- Entries are passed one by one. -/
theorem passed_cons_iff {e : PoolEntry} {es : List PoolEntry} :
    Passed count (e :: es) s u ↔ ∃ t, Passed count [e] s t ∧ Passed count es t u := by
  constructor
  · intro h
    obtain ⟨d, hd, hu⟩ := Cursor.passes_append_iff.mp h.passes
    have hslots : u.slots.toList = (s.slots.toList ++ e.slots) ++ es.flatMap PoolEntry.slots :=
      h.slots_eq.trans (List.append_assoc _ _ _).symm
    have hle : s.slots.size + e.slotWidth ≤ count := by
      have hsize := h.size_eq
      have hcount := h.size_le
      rw [List.map_cons, List.sum_cons] at hsize
      omega
    exact ⟨⟨(s.slots.toList ++ e.slots).toArray, d⟩, passed_singleton_iff.mpr ⟨hle, rfl, hd⟩,
      ⟨h.size_le, hslots, hu⟩⟩
  · intro h
    obtain ⟨t, ht, hu⟩ := h
    obtain ⟨-, hslots, hpasses⟩ := passed_singleton_iff.mp ht
    refine ⟨hu.size_le, ?_, hpasses.append hu.passes⟩
    rw [hu.slots_eq, hslots, List.append_assoc]
    rfl

/-- **A step**: a round passes one entry. -/
theorem round_iff : Round count s t ↔ ∃ e, Passed count [e] s t := by
  constructor
  · intro h
    obtain ⟨bs, ⟨e, hle, hslots, rfl⟩, hpasses⟩ :=
      (ConstantPool.accepts_readConstant h.missing _ _ _).mp h.read
    exact ⟨e, passed_singleton_iff.mpr ⟨hle, hslots, hpasses⟩⟩
  · intro h
    obtain ⟨e, he⟩ := h
    obtain ⟨hle, hslots, hpasses⟩ := passed_singleton_iff.mp he
    have hmissing : s.slots.size < count := by
      have hpos := e.length_slots_pos
      rw [e.length_slots] at hpos
      omega
    exact ⟨hmissing, (ConstantPool.accepts_readConstant hmissing _ _ _).mpr
      ⟨_, ⟨e, hle, hslots, rfl⟩, hpasses⟩⟩

/-- **A run**: so many rounds pass so many entries. -/
theorem rounds_iff (hs : s.slots.size ≤ count) :
    Rounds count n s t ↔ ∃ es : List PoolEntry, es.length = n ∧ Passed count es s t := by
  constructor
  · intro h
    induction h with
    | none s => exact ⟨[], rfl, passed_nil_iff.mpr ⟨rfl, hs⟩⟩
    | more first _ ih =>
      obtain ⟨e, he⟩ := round_iff.mp first
      obtain ⟨es, hlen, hes⟩ := ih he.size_le
      exact ⟨e :: es, congrArg (· + 1) hlen, passed_cons_iff.mpr ⟨_, he, hes⟩⟩
  · intro h
    obtain ⟨es, hlen, hes⟩ := h
    induction es generalizing s n with
    | nil =>
      obtain ⟨rfl, -⟩ := passed_nil_iff.mp hes
      exact hlen ▸ .none t
    | cons e es ih =>
      obtain ⟨u, he, hrest⟩ := passed_cons_iff.mp hes
      exact hlen ▸ .more (round_iff.mpr ⟨e, he⟩) (ih he.size_le rfl hrest)

/-- Every round leaves more slots, and never more than were announced. -/
theorem Rounds.size_le (h : Rounds count n s t) (hs : s.slots.size ≤ count) :
    s.slots.size + n ≤ t.slots.size ∧ t.slots.size ≤ count := by
  induction h with
  | none s => exact ⟨Nat.le_refl _, hs⟩
  | more first _ ih =>
    obtain ⟨e, he⟩ := round_iff.mp first
    have hpos := e.length_slots_pos
    have hsize := he.size_eq
    rw [List.map_singleton, List.sum_singleton, ← e.length_slots] at hsize
    obtain ⟨hmore, hle⟩ := ih he.size_le
    exact ⟨by omega, hle⟩

/-- The loop stops with this answer: no slot is missing, or the next constant cannot be read. -/
inductive Stops (count : Nat) (s : PoolState) : EStateM.Result Error Cursor ConstantPool → Prop
  | full (h : s.slots.size = count) : Stops count s (.ok ⟨s.slots⟩ s.cursor)
  | fault {e : Error} {d : Cursor} (missing : s.slots.size < count)
    (h : ConstantPool.readConstant count s.slots s.cursor = .error e d) : Stops count s (.error e d)

/-- **The loop stops**, since no round leaves as many slots missing as there were. -/
theorem exists_stops (hs : s.slots.size ≤ count) :
    ∃ n t answer, Rounds count n s t ∧ t.Stops count answer := by
  induction hmissing : count - s.slots.size using Nat.strongRecOn generalizing s with
  | ind missing ih =>
    rcases Nat.lt_or_eq_of_le hs with hlt | hfull
    · cases hread : ConstantPool.readConstant count s.slots s.cursor with
      | error e d => exact ⟨0, s, _, .none s, .fault hlt hread⟩
      | ok slots d =>
        have hround : Round count s ⟨slots, d⟩ := ⟨hlt, hread⟩
        obtain ⟨hmore, hle⟩ := (Rounds.more hround (.none _)).size_le hs
        obtain ⟨n, t, answer, hrounds, hstops⟩ := ih _ (by omega) hle rfl
        exact ⟨n + 1, t, answer, .more hround hrounds, hstops⟩
    · exact ⟨0, s, _, .none s, .full hfull⟩

end PoolState

namespace ConstantPool

open ByteReader

/-- The reader of slots is the loop: it answers what the loop stops with. -/
theorem readSlots_eq_of_stops {count n : Nat} {s t : PoolState}
    {answer : EStateM.Result Error Cursor ConstantPool} (h : PoolState.Rounds count n s t)
    (hstops : t.Stops count answer) :
    (return ⟨← readSlots count (count - s.slots.size) s.slots⟩ : ByteReader ConstantPool)
      s.cursor = answer := by
  induction h with
  | none s =>
    cases hstops with
    | full hfull =>
      rw [readSlots_of_full hfull]
      rfl
    | fault hmissing hread =>
      rw [readSlots_eq_readConstant hmissing, bind_assoc]
      show EStateM.bind _ _ _ = _
      unfold EStateM.bind
      rw [hread]
  | more first _ ih =>
    rw [readSlots_eq_readConstant first.missing, bind_assoc]
    show EStateM.bind _ _ _ = _
    unfold EStateM.bind
    rw [first.read]
    exact ih hstops

/-- **A pool is read as the loop stops** that starts behind the count with slot zero. -/
theorem read_eq_of_stops {c d : Cursor} {count : UInt16} (hcount : u16 c = .ok count d)
    (hpos : 1 ≤ count.toNat) {n : Nat} {t : PoolState}
    {answer : EStateM.Result Error Cursor ConstantPool}
    (h : PoolState.Rounds count.toNat n ⟨#[.unusable], d⟩ t)
    (hstops : t.Stops count.toNat answer) : read c = answer := by
  obtain ⟨missing, hmissing⟩ := Nat.exists_eq_add_one.mpr hpos
  have hloop := readSlots_eq_of_stops h hstops
  show EStateM.bind _ _ c = _
  unfold EStateM.bind
  rw [hcount]
  rw [hmissing] at hloop
  simp only [hmissing]
  exact hloop

end ConstantPool

/-! ## 3. Pools -/

/-- Behind the cursor stand a count and entries that fill so many slots, slot zero included. -/
def Cursor.StartsPool (c : Cursor) (count : UInt16) (es : List PoolEntry) : Prop :=
  1 ≤ count.toNat ∧ (es.map PoolEntry.slotWidth).sum = count.toNat - 1 ∧
    ∃ rest, c.rest = Bytes.ofUInt16 count ++ (es.flatMap PoolEntry.octets ++ rest)

namespace ConstantPool

/-- The slots of a pool are those that the entries fill. -/
structure Holds (pool : ConstantPool) (count : UInt16) (es : List PoolEntry) : Prop where
  size_eq : pool.size = count.toNat
  first : pool.get? 0 = some .unusable
  behind : ∀ i, i + 1 < pool.size → (pool.slots[i + 1]? = some .unusable ↔
    pool.slots[i]? = some (.other 5) ∨ pool.slots[i]? = some (.other 6))
  usable : pool.slots.toList.filter (· ≠ .unusable) = es.map PoolEntry.constant

theorem holds_of_slots {pool : ConstantPool} {count : UInt16} {es : List PoolEntry}
    (hslots : pool.slots.toList = .unusable :: es.flatMap PoolEntry.slots)
    (hcount : (es.map PoolEntry.slotWidth).sum + 1 = count.toNat) : pool.Holds count es := by
  have hsize : pool.size = count.toNat := by
    rw [size, ← Array.length_toList, hslots, List.length_cons, PoolEntry.length_flatMap_slots,
      hcount]
  refine ⟨hsize, ?_, fun i hi => ?_, ?_⟩
  · show pool.slots[0]? = _
    rw [← Array.getElem?_toList, hslots]
    rfl
  · have hchain := isChain_slots (x := .unusable) (by simp [Constant.Wide]) es
    rw [← hslots] at hchain
    have hpair := hchain.getElem i (by rwa [Array.length_toList])
    have hlt : i < pool.slots.size := Nat.lt_of_succ_lt hi
    rw [Array.getElem?_eq_getElem hi, Array.getElem?_eq_getElem hlt]
    simp only [Array.getElem_toList] at hpair
    simp only [Option.some.injEq]
    exact hpair
  · rw [hslots, List.filter_cons_of_neg (by simp), filter_slots]

/-- A pool is read where one starts; it holds the entries, and the cursor passes them. -/
theorem exists_read_of_startsPool {c : Cursor} {count : UInt16} {es : List PoolEntry}
    (h : c.StartsPool count es) : ∃ pool d, read c = .ok pool d ∧ pool.Holds count es ∧
      d.data = c.data ∧ d.pos = c.pos + 2 + (es.map PoolEntry.size).sum := by
  obtain ⟨hpos, hsum, rest, hrest⟩ := h
  have hcount : (es.map PoolEntry.slotWidth).sum + 1 = count.toNat := by omega
  have hlt : (es.flatMap PoolEntry.slots).length + 1 < 0x10000 := by
    rw [PoolEntry.length_flatMap_slots, hcount]
    exact count.toNat_lt
  have hoctets : (PoolLayout.mk es hlt).octets =
      Bytes.ofUInt16 count ++ es.flatMap PoolEntry.octets := by
    rw [PoolLayout.octets, PoolLayout.slots, List.length_cons, PoolEntry.length_flatMap_slots,
      hcount, Bytes.ofUInt16]
  rw [← List.append_assoc] at hrest
  obtain ⟨d, hpasses, -⟩ := Cursor.exists_passes hrest
  obtain ⟨pool, hslots⟩ : ∃ pool : ConstantPool,
      pool.slots.toList = (PoolLayout.mk es hlt).slots := ⟨⟨List.toArray _⟩, rfl⟩
  refine ⟨pool, d, (accepts_read c pool d).mpr ⟨_, ⟨_, hslots, hoctets.symm⟩, hpasses⟩,
    holds_of_slots hslots hcount, hpasses.2.1, ?_⟩
  rw [hpasses.2.2, List.length_append, Bytes.length_ofUInt16, PoolEntry.length_flatMap_octets,
    Nat.add_assoc]

/-- Where a pool is read, one starts. -/
theorem startsPool_of_read {c d : Cursor} {pool : ConstantPool} (h : read c = .ok pool d) :
    ∃ count es, c.StartsPool count es := by
  obtain ⟨_, ⟨p, -, rfl⟩, hpasses⟩ := (accepts_read c pool d).mp h
  have hcount : (UInt16.ofNat p.slots.length).toNat = p.slots.length :=
    UInt16.toNat_ofNat_of_lt' p.length_lt
  have hlen : p.slots.length = (p.entries.map PoolEntry.slotWidth).sum + 1 := by
    rw [PoolLayout.slots, List.length_cons, PoolEntry.length_flatMap_slots]
  refine ⟨UInt16.ofNat p.slots.length, p.entries, ?_, ?_, d.rest, ?_⟩
  · rw [hcount, hlen]
    exact Nat.le_add_left 1 _
  · rw [hcount, hlen, Nat.add_sub_cancel]
  · rw [hpasses.1, PoolLayout.octets, Bytes.ofUInt16, hcount, List.append_assoc]

/-- A constant that takes two slots is refused in the last one, whatever follows its tag. -/
theorem read_wide_last {c : Cursor} {count : UInt16} {es : List PoolEntry} {kind : WideKind}
    {rest : Bytes} (hsum : (es.map PoolEntry.slotWidth).sum + 2 = count.toNat)
    (hrest : c.rest = Bytes.ofUInt16 count ++ (es.flatMap PoolEntry.octets ++ kind.tag :: rest)) :
    ∃ d, read c = .error (.malformed (.wideConstant (count.toNat - 1) count.toNat)) d ∧
      d.data = c.data ∧ d.pos = c.pos + 2 + (es.map PoolEntry.size).sum + 1 := by
  obtain ⟨start, hstart, hentries⟩ := Cursor.exists_passes hrest
  obtain ⟨stop, hstop, htail⟩ := Cursor.exists_passes hentries
  obtain ⟨d, htag, -⟩ := Cursor.exists_passes (show stop.rest = [kind.tag] ++ rest from htail)
  have hcount : ByteReader.u16 c = .ok count start :=
    (ByteReader.accepts_u16 c count start).mpr ⟨_, rfl, hstart⟩
  -- the entries before it leave exactly one slot missing
  obtain ⟨s, rfl, hpassed⟩ : ∃ s : PoolState, s.cursor = stop ∧
      PoolState.Passed count.toNat es ⟨#[.unusable], start⟩ s := by
    refine ⟨⟨(.unusable :: es.flatMap PoolEntry.slots).toArray, stop⟩, rfl, ?_, rfl, hstop⟩
    rw [List.size_toArray, List.length_cons, PoolEntry.length_flatMap_slots]
    omega
  have hsize : s.slots.size + 1 = count.toNat := by
    rw [hpassed.size_eq, List.size_toArray, List.length_singleton]
    omega
  have hrounds := (PoolState.rounds_iff (n := es.length) (by
    show 1 ≤ count.toNat
    omega)).mpr ⟨es, rfl, hpassed⟩
  have hread := read_eq_of_stops hcount (by omega) hrounds
    (.fault (by omega) (readConstant_wide_last hsize kind htag))
  refine ⟨d, ?_, ?_, ?_⟩
  · rw [hread, ← hsize, Nat.add_sub_cancel]
  · rw [htag.2.1, hstop.2.1, hstart.2.1]
  · rw [htag.2.2, hstop.2.2, hstart.2.2, PoolEntry.length_flatMap_octets, Bytes.length_ofUInt16,
      List.length_singleton]

end ConstantPool

/-- **When a pool is read, and what it holds then.** A pool is read exactly where a count that is
    not zero stands before entries that fill one slot less. It has as many slots as were announced;
    slot zero cannot be used, and another slot cannot be used exactly behind a constant of eight
    octets; those that can be used are the entries in their order, and the cursor has passed the
    count and the octets of the entries. A constant of eight octets is refused in the last slot as
    soon as its tag is passed, whatever follows. The loop does not do as many rounds as were
    announced, never has more slots than that, and stops: with all slots, or at a constant that
    cannot be read. -/
theorem read_iff_entries_and_rounds (c : Cursor) :
    ((∃ pool d, ConstantPool.read c = .ok pool d) ↔ ∃ count es, c.StartsPool count es) ∧
    (∀ count (es : List PoolEntry) pool d, c.StartsPool count es →
      ConstantPool.read c = .ok pool d →
      pool.Holds count es ∧ d.data = c.data ∧
        d.pos = c.pos + 2 + (es.map PoolEntry.size).sum) ∧
    (∀ (count : UInt16) (es : List PoolEntry) (kind : WideKind) (rest : Bytes),
      (es.map PoolEntry.slotWidth).sum + 2 = count.toNat →
      c.rest = Bytes.ofUInt16 count ++ (es.flatMap PoolEntry.octets ++ kind.tag :: rest) →
      ∃ d, ConstantPool.read c =
          .error (.malformed (.wideConstant (count.toNat - 1) count.toNat)) d ∧
        d.data = c.data ∧ d.pos = c.pos + 2 + (es.map PoolEntry.size).sum + 1) ∧
    (∀ count d, ByteReader.u16 c = .ok count d → 1 ≤ count.toNat →
      (∀ n s, PoolState.Rounds count.toNat n ⟨#[.unusable], d⟩ s →
        n < s.slots.size ∧ s.slots.size ≤ count.toNat) ∧
      ∃ n s answer, PoolState.Rounds count.toNat n ⟨#[.unusable], d⟩ s ∧
        s.Stops count.toNat answer ∧ ConstantPool.read c = answer) := by
  refine ⟨⟨?_, ?_⟩, ?_, fun count es kind rest => ConstantPool.read_wide_last, ?_⟩
  · intro h
    obtain ⟨pool, d, hread⟩ := h
    exact ConstantPool.startsPool_of_read hread
  · intro h
    obtain ⟨count, es, hstarts⟩ := h
    obtain ⟨pool, d, hread, -⟩ := ConstantPool.exists_read_of_startsPool hstarts
    exact ⟨pool, d, hread⟩
  · intro count es pool d hstarts hread
    obtain ⟨_, _, hread', hrest⟩ := ConstantPool.exists_read_of_startsPool hstarts
    cases hread.symm.trans hread'
    exact hrest
  · intro count d hcount hpos
    have hstart : (⟨#[.unusable], d⟩ : PoolState).slots.size ≤ count.toNat := hpos
    refine ⟨fun n s hrounds => ?_, ?_⟩
    · obtain ⟨hmore, hle⟩ := hrounds.size_le hstart
      exact ⟨Nat.lt_of_lt_of_le (Nat.lt_add_of_pos_left Nat.one_pos) hmore, hle⟩
    · obtain ⟨n, s, answer, hrounds, hstops⟩ := PoolState.exists_stops hstart
      exact ⟨n, s, answer, hrounds, hstops,
        ConstantPool.read_eq_of_stops hcount hpos hrounds hstops⟩

/-- A constant of eight octets and one of two. -/
def longAndString : List PoolEntry :=
  [.wide .long [0, 0, 0, 0, 0, 0, 0, 42] rfl, .plain .string [0, 1] rfl]

/-- Two entries fill three slots, whatever follows them; and a pool of one more slot than slot zero
    has no room for a constant of eight octets, of which there is nothing but the tag. -/
theorem read_longAndString :
    (∃ pool d, ConstantPool.read
        (.ofBytes [0, 4, 5, 0, 0, 0, 0, 0, 0, 0, 42, 8, 0, 1, 0xaa]) = .ok pool d ∧
      pool.Holds 4 longAndString ∧ d.pos = 14) ∧
    (∃ d, ConstantPool.read (.ofBytes [0, 2, 6]) =
      .error (.malformed (.wideConstant 1 2)) d ∧ d.pos = 3) := by
  constructor
  · obtain ⟨hiff, hholds, -⟩ := read_iff_entries_and_rounds
      (.ofBytes [0, 4, 5, 0, 0, 0, 0, 0, 0, 0, 42, 8, 0, 1, 0xaa])
    have hstarts : (Cursor.ofBytes [0, 4, 5, 0, 0, 0, 0, 0, 0, 0, 42, 8, 0, 1, 0xaa]).StartsPool 4
        longAndString := ⟨by decide, rfl, [0xaa], rfl⟩
    obtain ⟨pool, d, hread⟩ := hiff.mpr ⟨4, longAndString, hstarts⟩
    obtain ⟨hpool, -, hpos⟩ := hholds 4 longAndString pool d hstarts hread
    exact ⟨pool, d, hread, hpool, hpos⟩
  · obtain ⟨-, -, hlast, -⟩ := read_iff_entries_and_rounds (.ofBytes [0, 2, 6])
    obtain ⟨d, hread, -, hpos⟩ := hlast 2 [] .double [] rfl rfl
    exact ⟨d, hread, hpos⟩

end SdkConformance
