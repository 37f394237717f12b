import SdkConformance.Proofs.ClassFile.Layout

/-!
# Reading a constant pool

The reader of a constant pool accepts the layout of constant pools: what it answers are the slots of
the layout, and what it passes are the octets of the layout.

* `Payload.ofTag?_tag` and its converses: the payload of a tag is that of the constants with it;
* `accepts_readSlots`: so many slots are filled exactly by entries that have so many slots;
* `ConstantPool.accepts_read`: the whole pool.
-/

namespace SdkConformance

/-! ## 1. Tags -/

/-- How the payload of a constant is laid out. -/
def PoolEntry.form : PoolEntry → Payload
  | text .. => .text
  | classRef _ => .classRef
  | wide .. => .wide
  | plain kind .. => .opaqueOctets kind.size

namespace Payload

/-- The tag of a constant tells how its payload is laid out. -/
theorem ofTag?_tag (e : PoolEntry) : ofTag? e.tag = some e.form := by
  cases e with
  | text => rfl
  | classRef => rfl
  | wide kind => cases kind <;> rfl
  | plain kind => cases kind <;> rfl

theorem eq_of_ofTag?_text {tag : UInt8} (h : ofTag? tag = some .text) : tag = 1 := by
  unfold ofTag? at h
  split at h
  case h_1 htag => exact UInt8.toNat_inj.mp htag
  all_goals cases h

theorem eq_of_ofTag?_classRef {tag : UInt8} (h : ofTag? tag = some .classRef) : tag = 7 := by
  unfold ofTag? at h
  split at h
  case h_2 htag => exact UInt8.toNat_inj.mp htag
  all_goals cases h

theorem exists_of_ofTag?_wide {tag : UInt8} (h : ofTag? tag = some .wide) :
    ∃ kind : WideKind, kind.tag = tag := by
  unfold ofTag? at h
  split at h
  case h_3 htag => exact ⟨.long, (UInt8.toNat_inj.mp htag).symm⟩
  case h_4 htag => exact ⟨.double, (UInt8.toNat_inj.mp htag).symm⟩
  all_goals cases h

theorem exists_of_ofTag?_opaqueOctets {tag : UInt8} {n : Nat}
    (h : ofTag? tag = some (.opaqueOctets n)) :
    ∃ kind : OpaqueKind, kind.tag = tag ∧ kind.size = n := by
  unfold ofTag? at h
  split at h
  case h_5 htag => cases h; exact ⟨.string, (UInt8.toNat_inj.mp htag).symm, rfl⟩
  case h_6 htag => cases h; exact ⟨.methodType, (UInt8.toNat_inj.mp htag).symm, rfl⟩
  case h_7 htag => cases h; exact ⟨.module, (UInt8.toNat_inj.mp htag).symm, rfl⟩
  case h_8 htag => cases h; exact ⟨.package, (UInt8.toNat_inj.mp htag).symm, rfl⟩
  case h_9 htag => cases h; exact ⟨.methodHandle, (UInt8.toNat_inj.mp htag).symm, rfl⟩
  case h_10 htag => cases h; exact ⟨.integer, (UInt8.toNat_inj.mp htag).symm, rfl⟩
  case h_11 htag => cases h; exact ⟨.float, (UInt8.toNat_inj.mp htag).symm, rfl⟩
  case h_12 htag => cases h; exact ⟨.field, (UInt8.toNat_inj.mp htag).symm, rfl⟩
  case h_13 htag => cases h; exact ⟨.method, (UInt8.toNat_inj.mp htag).symm, rfl⟩
  case h_14 htag => cases h; exact ⟨.interfaceMethod, (UInt8.toNat_inj.mp htag).symm, rfl⟩
  case h_15 htag => cases h; exact ⟨.nameAndType, (UInt8.toNat_inj.mp htag).symm, rfl⟩
  case h_16 htag => cases h; exact ⟨.dynamic, (UInt8.toNat_inj.mp htag).symm, rfl⟩
  case h_17 htag => cases h; exact ⟨.invokeDynamic, (UInt8.toNat_inj.mp htag).symm, rfl⟩
  all_goals cases h

end Payload

/-! ## 2. Entries -/

theorem PoolEntry.length_slots_pos (e : PoolEntry) : 0 < e.slots.length := by
  cases e with
  | text => exact Nat.one_pos
  | classRef => exact Nat.one_pos
  | wide => exact Nat.two_pos
  | plain => exact Nat.one_pos

/-- The entries fill so many slots behind those that are done, and are written as these octets. -/
def Fills (missing : Nat) (done : List Constant) (es : List PoolEntry) (bs : Bytes)
    (slots : Array Constant) : Prop :=
  (es.flatMap PoolEntry.slots).length = missing ∧
    slots.toList = done ++ es.flatMap PoolEntry.slots ∧ bs = es.flatMap PoolEntry.octets

theorem fills_zero_iff {done : List Constant} {slots : Array Constant} {es : List PoolEntry}
    {bs : Bytes} : Fills 0 done es bs slots ↔ es = [] ∧ bs = [] ∧ slots.toList = done := by
  constructor
  · intro hx
    obtain ⟨hlen, hslots, rfl⟩ := hx
    cases es with
    | nil => exact ⟨rfl, rfl, hslots.trans (List.append_nil _)⟩
    | cons e es =>
      have hpos := e.length_slots_pos
      rw [List.flatMap_cons, List.length_append] at hlen
      omega
  · intro hx
    obtain ⟨rfl, rfl, rfl⟩ := hx
    exact ⟨rfl, (List.append_nil _).symm, rfl⟩

/-- The first entry fills its slots, and the others what is missing then. -/
theorem fills_cons_iff {missing : Nat} {done : List Constant} {slots : Array Constant}
    {e : PoolEntry} {es : List PoolEntry} {bs : Bytes} :
    Fills (missing + e.slots.length) done (e :: es) (e.tag :: bs) slots ↔
      ∃ cs, bs = e.payload ++ cs ∧ Fills missing (done ++ e.slots) es cs slots := by
  have hlen : ((e :: es).flatMap PoolEntry.slots).length = missing + e.slots.length ↔
      (es.flatMap PoolEntry.slots).length = missing := by
    rw [List.flatMap_cons, List.length_append]
    omega
  have hoctets : e.tag :: bs = (e :: es).flatMap PoolEntry.octets ↔
      bs = e.payload ++ es.flatMap PoolEntry.octets := by
    rw [List.flatMap_cons, PoolEntry.octets, List.cons_append, List.cons.injEq]
    exact and_iff_right rfl
  rw [Fills, hlen, hoctets, List.flatMap_cons, ← List.append_assoc]
  constructor
  · intro hx
    obtain ⟨hlen, hslots, rfl⟩ := hx
    exact ⟨_, rfl, hlen, hslots, rfl⟩
  · intro hx
    obtain ⟨_, rfl, hlen, hslots, rfl⟩ := hx
    exact ⟨hlen, hslots, rfl⟩

/-- What follows this tag, where it is the tag of the first of some entries that fill so many
    slots. -/
def FillsAfter (missing : Nat) (done : List Constant) (tag : UInt8) (bs : Bytes)
    (slots : Array Constant) : Prop :=
  ∃ e es, e.tag = tag ∧ Fills missing done (e :: es) (tag :: bs) slots

/-- Some entries that fill more slots start with one of them. -/
theorem exists_fills_succ_iff {missing : Nat} {done : List Constant} {slots : Array Constant}
    {bs : Bytes} :
    (∃ es, Fills (missing + 1) done es bs slots) ↔
      ∃ tag cs, FillsAfter (missing + 1) done tag cs slots ∧ bs = tag :: cs := by
  constructor
  · intro hx
    obtain ⟨es, hlen, hslots, rfl⟩ := hx
    cases es with
    | nil => cases hlen
    | cons e es => exact ⟨e.tag, _, ⟨e, es, rfl, hlen, hslots, rfl⟩, rfl⟩
  · intro hx
    obtain ⟨tag, cs, ⟨e, es, -, hfills⟩, rfl⟩ := hx
    exact ⟨e :: es, hfills⟩

/-! ## 3. Reading -/

namespace ConstantPool

open ByteReader

section Entries

variable {count missing : Nat} {done : Array Constant} {tag : UInt8}

/-- So many slots are filled by entries that have so many. -/
def FillsRest (count missing : Nat) : Prop :=
  ∀ done, (readSlots count missing done).Accepts fun bs slots =>
    ∃ es, Fills missing done.toList es bs slots

/-- The same behind more slots that are done. -/
theorem FillsRest.of_toList (h : FillsRest count missing) {later : Array Constant}
    {xs : List Constant} (hlater : later.toList = done.toList ++ xs) :
    (readSlots count missing later).Accepts fun bs slots =>
      ∃ es, Fills missing (done.toList ++ xs) es bs slots :=
  hlater ▸ h later

theorem accepts_text (htag : Payload.ofTag? tag = some .text) (h : FillsRest count missing) :
    Accepts (do
      let length ← u16
      let text ← modifiedUtf8 length.toNat
      readSlots count missing (done.push (.utf8 text)))
      (FillsAfter (missing + 1) done.toList tag) := by
  refine (Accepts.u16_bind fun length => (accepts_modifiedUtf8 length.toNat).bind fun text =>
    h.of_toList Array.toList_push).congr fun bs slots => ⟨?_, ?_⟩
  · intro hx
    obtain ⟨length, _, rfl, octets, s, cs, rfl, ⟨hlen, hspells⟩, es, hes⟩ := hx
    have hlt : octets.length < 0x10000 := hlen ▸ length.toNat_lt
    obtain rfl := Payload.eq_of_ofTag?_text htag
    -- the length that was read is that of the octets, so the entry is written as they were
    refine ⟨.text octets s hlt hspells, es, rfl, fills_cons_iff.mpr ⟨cs, ?_, hes⟩⟩
    rw [PoolEntry.payload, hlen, List.append_assoc]
    rfl
  · intro hx
    obtain ⟨e, es, rfl, hfills⟩ := hx
    have hform := (Payload.ofTag?_tag e).symm.trans htag
    cases e with
    | text octets s hlt hspells =>
      obtain ⟨cs, rfl, hes⟩ := fills_cons_iff.mp hfills
      have hlen : (UInt16.ofNat octets.length).toNat = octets.length :=
        UInt16.toNat_ofNat_of_lt' hlt
      refine ⟨UInt16.ofNat octets.length, octets ++ cs, ?_, octets, s, cs, rfl,
        ⟨hlen.symm, hspells⟩, es, hes⟩
      rw [PoolEntry.payload, Bytes.ofUInt16, hlen, List.append_assoc]
    | classRef => cases hform
    | wide => cases hform
    | plain => cases hform

theorem accepts_classRef (htag : Payload.ofTag? tag = some .classRef)
    (h : FillsRest count missing) :
    Accepts (do
      let nameIndex ← u16
      readSlots count missing (done.push (.classRef nameIndex)))
      (FillsAfter (missing + 1) done.toList tag) := by
  refine (Accepts.u16_bind fun nameIndex => h.of_toList Array.toList_push).congr fun bs slots =>
    ⟨?_, ?_⟩
  · intro hx
    obtain ⟨nameIndex, cs, rfl, es, hes⟩ := hx
    obtain rfl := Payload.eq_of_ofTag?_classRef htag
    exact ⟨.classRef nameIndex, es, rfl, fills_cons_iff.mpr ⟨cs, rfl, hes⟩⟩
  · intro hx
    obtain ⟨e, es, rfl, hfills⟩ := hx
    have hform := (Payload.ofTag?_tag e).symm.trans htag
    cases e with
    | classRef nameIndex =>
      obtain ⟨cs, rfl, hes⟩ := fills_cons_iff.mp hfills
      exact ⟨nameIndex, cs, rfl, es, hes⟩
    | text => cases hform
    | wide => cases hform
    | plain => cases hform

theorem accepts_opaqueOctets {n : Nat} (htag : Payload.ofTag? tag = some (.opaqueOctets n))
    (h : FillsRest count missing) :
    Accepts (do
      skip n
      readSlots count missing (done.push (.other tag)))
      (FillsAfter (missing + 1) done.toList tag) := by
  refine ((accepts_skip n).bind fun _ => h.of_toList Array.toList_push).congr fun bs slots =>
    ⟨?_, ?_⟩
  · intro hx
    obtain ⟨octets, _, cs, rfl, hlen, es, hes⟩ := hx
    obtain ⟨kind, rfl, rfl⟩ := Payload.exists_of_ofTag?_opaqueOctets htag
    exact ⟨.plain kind octets hlen, es, rfl, fills_cons_iff.mpr ⟨cs, rfl, hes⟩⟩
  · intro hx
    obtain ⟨e, es, rfl, hfills⟩ := hx
    have hform := (Payload.ofTag?_tag e).symm.trans htag
    cases e with
    | plain kind octets hlen =>
      obtain ⟨cs, rfl, hes⟩ := fills_cons_iff.mp hfills
      cases hform
      exact ⟨octets, (), cs, rfl, hlen, es, hes⟩
    | text => cases hform
    | classRef => cases hform
    | wide => cases hform

theorem accepts_wide (htag : Payload.ofTag? tag = some .wide) (h : FillsRest count missing) :
    Accepts (do
      skip 8
      readSlots count missing ((done.push (.other tag)).push .unusable))
      (FillsAfter (missing + 2) done.toList tag) := by
  have hlater : ((done.push (.other tag)).push .unusable).toList =
      done.toList ++ [.other tag, .unusable] := by
    rw [Array.toList_push, Array.toList_push, List.append_assoc]
    rfl
  refine ((accepts_skip 8).bind fun _ => h.of_toList hlater).congr fun bs slots => ⟨?_, ?_⟩
  · intro hx
    obtain ⟨octets, _, cs, rfl, hlen, es, hes⟩ := hx
    obtain ⟨kind, rfl⟩ := Payload.exists_of_ofTag?_wide htag
    exact ⟨.wide kind octets hlen, es, rfl, fills_cons_iff.mpr ⟨cs, rfl, hes⟩⟩
  · intro hx
    obtain ⟨e, es, rfl, hfills⟩ := hx
    have hform := (Payload.ofTag?_tag e).symm.trans htag
    cases e with
    | wide kind octets hlen =>
      obtain ⟨cs, rfl, hes⟩ := fills_cons_iff.mp hfills
      exact ⟨octets, (), cs, rfl, hlen, es, hes⟩
    | text => cases hform
    | classRef => cases hform
    | plain => cases hform

/-- No entry has an unknown tag. -/
theorem not_fillsAfter_of_none (htag : Payload.ofTag? tag = none) {bs : Bytes}
    {slots : Array Constant} : ¬ FillsAfter missing done.toList tag bs slots := by
  intro hx
  obtain ⟨e, _, rfl, _⟩ := hx
  rw [Payload.ofTag?_tag] at htag
  cases htag

/-- No entry that takes two slots fills the last one. -/
theorem not_fillsAfter_of_wide (htag : Payload.ofTag? tag = some .wide) {bs : Bytes}
    {slots : Array Constant} : ¬ FillsAfter 1 done.toList tag bs slots := by
  intro hx
  obtain ⟨e, es, rfl, hlen, -, -⟩ := hx
  have hform := (Payload.ofTag?_tag e).symm.trans htag
  cases e with
  | wide kind octets _ =>
    rw [List.flatMap_cons, List.length_append] at hlen
    change 2 + _ = 1 at hlen
    omega
  | text => cases hform
  | classRef => cases hform
  | plain => cases hform

/-- **So many slots are filled exactly by entries that have so many slots.** -/
theorem accepts_readSlots (count missing : Nat) : FillsRest count missing := by
  -- an entry that takes two slots leaves two less to be filled
  induction missing using Nat.strongRecOn with
  | ind missing ih =>
    intro done
    cases missing with
    | zero =>
      rw [readSlots]
      refine (accepts_pure done).congr fun bs slots => ⟨?_, ?_⟩
      · intro hx
        obtain ⟨rfl, rfl⟩ := hx
        exact ⟨[], fills_zero_iff.mpr ⟨rfl, rfl, rfl⟩⟩
      · intro hx
        obtain ⟨es, hes⟩ := hx
        obtain ⟨-, rfl, hslots⟩ := fills_zero_iff.mp hes
        exact ⟨rfl, Array.toList_inj.mp hslots⟩
    | succ missing =>
      have hrest : FillsRest count missing := ih missing (Nat.lt_succ_self _)
      rw [readSlots]
      refine (accepts_u8.bind fun tag => (?_ : Accepts _ (FillsAfter (missing + 1) done.toList
        tag))).congr fun bs slots => ?_
      · cases htag : Payload.ofTag? tag with
        | none =>
          exact (accepts_throw _).congr fun bs slots =>
            ⟨False.elim, not_fillsAfter_of_none htag⟩
        | some form =>
          cases form with
          | text => exact accepts_text htag hrest
          | classRef => exact accepts_classRef htag hrest
          | opaqueOctets n => exact accepts_opaqueOctets htag hrest
          | wide =>
            cases missing with
            | zero =>
              exact (accepts_throw _).congr fun bs slots =>
                ⟨False.elim, not_fillsAfter_of_wide htag⟩
            | succ missing => exact accepts_wide htag (ih missing (by omega))
      · rw [exists_fills_succ_iff]
        constructor
        · intro hx
          obtain ⟨_, tag, cs, rfl, rfl, hcs⟩ := hx
          exact ⟨tag, cs, hcs, rfl⟩
        · intro hx
          obtain ⟨tag, cs, hcs, rfl⟩ := hx
          exact ⟨[tag], tag, cs, rfl, rfl, hcs⟩

end Entries

/-- The slots behind slot zero, and the entries that fill them. -/
theorem accepts_readSlots_all (count : UInt16) {missing : Nat}
    (hcount : count.toNat = missing + 1) :
    Accepts (return ⟨← readSlots count.toNat missing #[.unusable]⟩) fun bs (pool : ConstantPool) =>
      ∃ p : PoolLayout, p.slots.length = count.toNat ∧ pool.slots.toList = p.slots ∧
        bs = p.entries.flatMap PoolEntry.octets := by
  refine ((accepts_readSlots count.toNat missing #[.unusable]).map ConstantPool.mk).congr
    fun bs pool => ⟨?_, ?_⟩
  · intro hx
    obtain ⟨slots, ⟨es, hlen, hslots, rfl⟩, rfl⟩ := hx
    have hlt : (es.flatMap PoolEntry.slots).length + 1 < 0x10000 := by
      rw [hlen, ← hcount]
      exact count.toNat_lt
    refine ⟨⟨es, hlt⟩, ?_, hslots, rfl⟩
    rw [PoolLayout.slots, List.length_cons, hlen, hcount]
  · intro hx
    obtain ⟨p, hlen, hslots, rfl⟩ := hx
    rw [PoolLayout.slots, List.length_cons, hcount] at hlen
    exact ⟨pool.slots, ⟨p.entries, Nat.succ.inj hlen, hslots, rfl⟩, rfl⟩

/-- **A pool is read exactly where one is laid out**, and its slots are those of the layout. -/
theorem accepts_read : read.Accepts fun bs pool =>
    ∃ p : PoolLayout, pool.slots.toList = p.slots ∧ bs = p.octets := by
  rw [read]
  refine (Accepts.u16_bind fun count => (?_ : Accepts _ fun bs (pool : ConstantPool) =>
    ∃ p : PoolLayout, p.slots.length = count.toNat ∧ pool.slots.toList = p.slots ∧
      bs = p.entries.flatMap PoolEntry.octets)).congr fun bs pool => ⟨?_, ?_⟩
  · split
    · rename_i hzero
      refine (accepts_throw _).congr fun bs pool => ⟨False.elim, ?_⟩
      intro hx
      obtain ⟨p, hlen, -, -⟩ := hx
      rw [hzero] at hlen
      cases hlen
    · rename_i missing hcount
      exact accepts_readSlots_all count hcount
  · intro hx
    obtain ⟨count, _, rfl, p, hlen, hslots, rfl⟩ := hx
    refine ⟨p, hslots, ?_⟩
    rw [PoolLayout.octets, hlen]
    rfl
  · intro hx
    obtain ⟨p, hslots, rfl⟩ := hx
    have hcount : (UInt16.ofNat p.slots.length).toNat = p.slots.length :=
      UInt16.toNat_ofNat_of_lt' p.length_lt
    refine ⟨UInt16.ofNat p.slots.length, _, ?_, p, hcount.symm, hslots, rfl⟩
    rw [PoolLayout.octets, Bytes.ofUInt16, hcount]

end ConstantPool

end SdkConformance
