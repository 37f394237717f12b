import Mathlib.Data.List.Basic
import SdkConformance.Proofs.ClassFile.PoolReading

/-!
# Reading a class file

The reader of class files accepts the layout of class files, and nothing else. Each of its parts
accepts the layout of that part, whatever was read before.

* `accepts_skipAttributeTable`, `accepts_skipFields`: attributes and fields are passed as a whole;
* `accepts_readMethod`, `accepts_readMethods`: methods are kept as `Member.Shows` says;
* `parse_eq_ok_iff`: octets are parsed to a class exactly when they start with a layout that shows
  this class.
-/

namespace SdkConformance

/-! ## 1. Slots -/

namespace ConstantPool

theorem get?_eq (pool : ConstantPool) (index : UInt16) :
    pool.get? index = pool.slots.toList[index.toNat]? := by
  rw [get?, Array.getElem?_toList]

/-- A text is found in a slot that holds it. -/
theorem utf8_eq_ok_iff {pool : ConstantPool} {index : UInt16} {s : String} :
    pool.utf8 index = .ok s ↔ HoldsText pool.slots.toList index s := by
  rw [HoldsText, ← get?_eq, utf8]
  constructor
  · intro hs
    split at hs
    · rename_i text htext
      rw [htext, Except.ok.inj hs]
    · cases hs
    · cases hs
  · intro hs
    rw [hs]

/-- The name of a class is found in a slot that holds a class of this name. -/
theorem className_eq_ok_iff {pool : ConstantPool} {index : UInt16} {name : String} :
    pool.className index = .ok name ↔ HoldsClass pool.slots.toList index name := by
  rw [HoldsClass, ← get?_eq, className]
  constructor
  · intro hname
    split at hname
    · rename_i nameIndex hclass
      exact ⟨nameIndex, hclass, utf8_eq_ok_iff.mp hname⟩
    · cases hname
    · cases hname
  · intro hx
    obtain ⟨nameIndex, hclass, hname⟩ := hx
    rw [hclass]
    exact utf8_eq_ok_iff.mpr hname

end ConstantPool

/-! ## 2. Tables -/

namespace ByteReader

/-- A number, and then so many items: a table. -/
theorem Accepts.table {ι α : Type} {format : List ι → Bytes → α → Prop}
    {loop : Nat → ByteReader α}
    (h : ∀ n, (loop n).Accepts fun bs a => ∃ xs, xs.length = n ∧ format xs bs a) :
    (u16 >>= fun n => loop n.toNat).Accepts fun bs a =>
      ∃ (t : Table ι) (cs : Bytes), bs = Bytes.ofNatBigEndian 2 t.items.length ++ cs ∧
        format t.items cs a := by
  refine (Accepts.u16_bind fun n => h n.toNat).congr fun bs a => ⟨?_, ?_⟩
  · intro hx
    obtain ⟨n, cs, rfl, xs, hlen, hxs⟩ := hx
    refine ⟨⟨xs, hlen ▸ n.toNat_lt⟩, cs, ?_, hxs⟩
    rw [hlen]
    rfl
  · intro hx
    obtain ⟨t, cs, rfl, hcs⟩ := hx
    have hlen : (UInt16.ofNat t.items.length).toNat = t.items.length :=
      UInt16.toNat_ofNat_of_lt' t.length_lt
    refine ⟨UInt16.ofNat t.items.length, cs, ?_, t.items, hlen.symm, hcs⟩
    rw [Bytes.ofUInt16, hlen]

/-- The same where the items are passed and no value is kept. -/
theorem Accepts.unitTable {ι : Type} {octetsOf : ι → Bytes} {loop : Nat → ByteReader Unit}
    (h : ∀ n, (loop n).Accepts fun bs _ =>
      ∃ xs : List ι, xs.length = n ∧ bs = xs.flatMap octetsOf) :
    (u16 >>= fun n => loop n.toNat).Accepts fun bs _ => ∃ t : Table ι, bs = t.octets octetsOf := by
  refine (Accepts.table h).congr fun bs _ => ⟨?_, ?_⟩
  · intro hx
    obtain ⟨t, _, rfl, rfl⟩ := hx
    exact ⟨t, rfl⟩
  · intro hx
    obtain ⟨t, rfl⟩ := hx
    exact ⟨t, _, rfl, rfl⟩

end ByteReader

namespace ClassFile

open ByteReader

/-- An attribute is passed by its length. -/
theorem accepts_attribute :
    Accepts (do skip 2; let length ← u32; skip length.toNat) fun bs _ =>
      ∃ a : Attribute, bs = a.octets := by
  refine ((accepts_skip 2).bind fun _ => accepts_u32.bind fun length =>
    accepts_skip length.toNat).congr fun bs _ => ⟨?_, ?_⟩
  · intro hx
    obtain ⟨name, _, _, rfl, hname, _, length, contents, rfl, rfl, hlen⟩ := hx
    have hlength : Bytes.ofUInt32 length = Bytes.ofNatBigEndian 4 contents.length := by
      rw [hlen]; rfl
    refine ⟨⟨UInt16.ofNat (Bytes.bigEndian name), contents, hlen ▸ length.toNat_lt⟩, ?_⟩
    rw [Attribute.octets, Bytes.ofUInt16_ofNat_bigEndian hname, hlength, List.append_assoc]
  · intro hx
    obtain ⟨a, rfl⟩ := hx
    have hlen : (UInt32.ofNat a.contents.length).toNat = a.contents.length :=
      UInt32.toNat_ofNat_of_lt' a.length_lt
    refine ⟨Bytes.ofUInt16 a.nameIndex, (), _, ?_, Bytes.length_ofUInt16 _,
      _, UInt32.ofNat a.contents.length, a.contents, rfl, rfl, hlen.symm⟩
    rw [Attribute.octets, Bytes.ofUInt32, hlen, List.append_assoc]

theorem accepts_skipAttributes (n : Nat) :
    (skipAttributes n).Accepts fun bs _ =>
      ∃ as : List Attribute, as.length = n ∧ bs = as.flatMap Attribute.octets :=
  accepts_attribute.times rfl (fun n => by simp only [skipAttributes, bind_assoc]) n

/-- The attributes of a field or a method are passed as a whole. -/
theorem accepts_skipAttributeTable :
    skipAttributeTable.Accepts fun bs _ =>
      ∃ t : Table Attribute, bs = t.octets Attribute.octets :=
  Accepts.unitTable accepts_skipAttributes

/-- A field is passed as a whole. -/
theorem accepts_field :
    Accepts (do skip 6; skipAttributeTable) fun bs _ => ∃ m : Member, bs = m.octets := by
  refine ((accepts_skip 6).bind fun _ => accepts_skipAttributeTable).congr fun bs _ => ⟨?_, ?_⟩
  · intro hx
    obtain ⟨head, _, _, rfl, hhead, attributes, rfl⟩ := hx
    -- the six octets are flags, name and descriptor
    obtain ⟨ns, hns, rfl⟩ := Bytes.exists_flatMap_ofUInt16 (show head.length = 3 * 2 from hhead)
    obtain ⟨access, nameIndex, descriptorIndex, rfl⟩ := List.length_eq_three.mp hns
    exact ⟨⟨access, nameIndex, descriptorIndex, attributes⟩, by simp [Member.octets]⟩
  · intro hx
    obtain ⟨m, rfl⟩ := hx
    exact ⟨_, (), _, rfl, by simp, m.attributes, rfl⟩

theorem accepts_skipFields (n : Nat) :
    (skipFields n).Accepts fun bs _ =>
      ∃ ms : List Member, ms.length = n ∧ bs = ms.flatMap Member.octets :=
  accepts_field.times rfl (fun n => by simp only [skipFields, bind_assoc]) n

/-! ## 3. Methods -/

/-- Where something is found, nothing is passed. -/
theorem accepts_resolved {α : Type} (found : Except Malformation α) :
    (resolved found).Accepts fun bs a => bs = [] ∧ found = .ok a := by
  cases found with
  | ok a =>
    exact (accepts_pure a).congr fun bs b =>
      and_congr_right' ⟨fun h => congrArg _ h.symm, fun h => (Except.ok.inj h).symm⟩
  | error m => exact (accepts_throw _).congr fun bs b => ⟨False.elim, fun h => by cases h.2⟩

section Methods

variable (pool : ConstantPool) (className : String)

/-- **A method is read where one is laid out**, and kept as the layout shows it. -/
theorem accepts_readMethod :
    (readMethod pool className).Accepts fun bs e =>
      ∃ m : Member, m.Shows pool.slots.toList e ∧ bs = m.octets := by
  rw [readMethod]
  refine Accepts.congr (Accepts.u16_bind fun access => Accepts.u16_bind fun nameIndex =>
    (accepts_resolved (pool.utf8 nameIndex)).bind_of_nil fun name =>
    Accepts.u16_bind fun descriptorIndex =>
    (accepts_resolved (pool.utf8 descriptorIndex)).bind_of_nil fun descriptor =>
    accepts_skipAttributeTable.bind fun _ =>
    @accepts_of_except _ _ _ (MethodDescriptor.parse descriptor)
      (fun types => ⟨name, descriptor, ⟨access⟩, types⟩) _ (fun types ht => ?_)
      fun fault hf => ⟨.malformed (.methodDescriptor descriptor className name fault), ?_⟩)
    fun bs e => ⟨?_, ?_⟩
  · rw [ht]
  · rw [hf]
  · intro hx
    obtain ⟨access, _, rfl, nameIndex, _, rfl, name, hname, descriptorIndex, _, rfl, descriptor,
      hdescriptor, _, _, _, rfl, ⟨attributes, rfl⟩, rfl, types, htypes, rfl⟩ := hx
    refine ⟨⟨access, nameIndex, descriptorIndex, attributes⟩,
      ⟨rfl, ConstantPool.utf8_eq_ok_iff.mp hname,
        ConstantPool.utf8_eq_ok_iff.mp hdescriptor, htypes⟩, ?_⟩
    simp [Member.octets]
  · intro hx
    obtain ⟨m, ⟨haccess, hname, hdescriptor, htypes⟩, rfl⟩ := hx
    simp only [Member.octets, List.append_assoc]
    refine ⟨m.access, _, rfl, m.nameIndex, _, rfl,
      e.name, ConstantPool.utf8_eq_ok_iff.mpr hname, m.descriptorIndex, _, rfl,
      e.descriptor, ConstantPool.utf8_eq_ok_iff.mpr hdescriptor,
      _, (), [], (List.append_nil _).symm, ⟨m.attributes, rfl⟩, rfl, e.types, htypes, ?_⟩
    rw [← haccess]

/-- So many methods are read where so many are laid out. -/
theorem accepts_readMethods (n : Nat) (done : List MethodEntry) :
    (readMethods pool className n done).Accepts fun bs all =>
      ∃ ms : List Member, ms.length = n ∧ bs = ms.flatMap Member.octets ∧
        ∃ es, all = done.reverse ++ es ∧
          List.Forall₂ (Member.Shows pool.slots.toList) ms es := by
  induction n generalizing done with
  | zero =>
    refine (accepts_pure done.reverse).congr fun bs all => ⟨?_, ?_⟩
    · intro hx
      obtain ⟨rfl, rfl⟩ := hx
      exact ⟨[], rfl, rfl, [], (List.append_nil _).symm, .nil⟩
    · intro hx
      obtain ⟨ms, hlen, rfl, es, rfl, hes⟩ := hx
      obtain rfl := List.length_eq_zero_iff.mp hlen
      cases hes
      exact ⟨rfl, List.append_nil _⟩
  | succ n ih =>
    refine ((accepts_readMethod pool className).bind fun e => ih (e :: done)).congr fun bs all =>
      ⟨?_, ?_⟩
    · intro hx
      obtain ⟨_, e, _, rfl, ⟨m, hm, rfl⟩, ms, hlen, rfl, es, rfl, hes⟩ := hx
      refine ⟨m :: ms, congrArg (· + 1) hlen, rfl, e :: es, ?_, .cons hm hes⟩
      rw [List.reverse_cons, List.append_assoc]
      rfl
    · intro hx
      obtain ⟨_, hlen, rfl, _, rfl, hes⟩ := hx
      cases hes with
      | nil => cases hlen
      | @cons m e ms es hm hes =>
        refine ⟨m.octets, e, ms.flatMap Member.octets, rfl, ⟨m, hm, rfl⟩,
          ms, Nat.succ.inj hlen, rfl, es, ?_, hes⟩
        rw [List.reverse_cons, List.append_assoc]
        rfl

end Methods

/-! ## 4. The whole file -/

/-- Reads what follows the names: interfaces, fields and methods. -/
def readTables (pool : ConstantPool) (className : String) : ByteReader (List MethodEntry) := do
  let interfaceCount ← u16
  skip (interfaceCount.toNat * 2)
  let fieldCount ← u16
  skipFields fieldCount.toNat
  let methodCount ← u16
  readMethods pool className methodCount.toNat []

/-- The dotted name of the parent; only index zero stands for none. -/
def readSuper (pool : ConstantPool) (index : UInt16) : ByteReader (Option String) :=
  if index = 0 then pure none
  else resolved ((pool.className index).map fun n => some (ClassName.dotted n))

/-- Reads what follows the constant pool. -/
def readBody (minorVersion majorVersion : UInt16) (pool : ConstantPool) : ByteReader ClassFile := do
  let access ← u16
  let thisIndex ← u16
  let name ← resolved ((pool.className thisIndex).map ClassName.dotted)
  let superIndex ← u16
  let superName ← readSuper pool superIndex
  let methods ← readTables pool name
  return ⟨minorVersion, majorVersion, ⟨access⟩, name, superName, methods⟩

/-- Reads what follows the number that every class file starts with. -/
def readVersioned : ByteReader ClassFile := do
  let minorVersion ← u16
  let majorVersion ← u16
  let pool ← ConstantPool.read
  readBody minorVersion majorVersion pool

/-- The reader of class files, with its parts named. -/
theorem read_eq :
    read = u32 >>= fun start =>
      if start = magic then readVersioned else throw (.malformed (.magic start)) := by
  unfold read
  refine bind_congr fun start => ?_
  by_cases h : start = magic
  · have hbne : (start != magic) = false := by rw [h, bne_self_eq_false]
    rw [if_pos h]
    simp only [hbne, Bool.false_eq_true, if_false, readVersioned, readBody, readTables, readSuper,
      bind_assoc, pure_bind]
    -- the two agree up to the name of the parent, which the one reader chooses a way for
    refine bind_congr fun minorVersion => bind_congr fun majorVersion => bind_congr fun pool =>
      bind_congr fun access => bind_congr fun thisIndex => bind_congr fun name =>
      bind_congr fun superIndex => ?_
    by_cases hzero : superIndex = 0
    · simp only [if_pos hzero, pure_bind]
    · simp only [if_neg hzero]
  · have hbne : (start != magic) = true := bne_iff_ne.mpr h
    rw [if_neg h]
    simp only [hbne, if_true]
    rfl

section Body

variable (pool : ConstantPool)

/-- Interfaces are passed; each of them is a number. -/
theorem accepts_skip_interfaces (n : Nat) :
    (skip (n * 2)).Accepts fun bs _ =>
      ∃ is : List UInt16, is.length = n ∧ bs = is.flatMap Bytes.ofUInt16 := by
  refine (accepts_skip (n * 2)).congr fun bs _ => ⟨Bytes.exists_flatMap_ofUInt16, ?_⟩
  intro hx
  obtain ⟨is, rfl, rfl⟩ := hx
  exact Bytes.length_flatMap_ofUInt16 is

theorem accepts_readTables (className : String) :
    (readTables pool className).Accepts fun bs es =>
      ∃ (interfaces : Table UInt16) (fields methods : Table Member),
        List.Forall₂ (Member.Shows pool.slots.toList) methods.items es ∧
        bs = interfaces.octets Bytes.ofUInt16 ++
          (fields.octets Member.octets ++ methods.octets Member.octets) := by
  have hparts : readTables pool className =
      (u16 >>= fun n => skip (n.toNat * 2)) >>= fun _ =>
      (u16 >>= fun n => skipFields n.toNat) >>= fun _ =>
      u16 >>= fun n => readMethods pool className n.toNat [] := by
    simp only [readTables, bind_assoc]
  rw [hparts]
  refine ((Accepts.unitTable accepts_skip_interfaces).bind fun _ =>
    (Accepts.unitTable accepts_skipFields).bind fun _ =>
    Accepts.table fun n => accepts_readMethods pool className n []).congr fun bs es => ⟨?_, ?_⟩
  · intro hx
    obtain ⟨_, _, _, rfl, ⟨interfaces, rfl⟩, _, _, _, rfl, ⟨fields, rfl⟩,
      methods, _, rfl, rfl, _, rfl, hes⟩ := hx
    exact ⟨interfaces, fields, methods, hes, rfl⟩
  · intro hx
    obtain ⟨interfaces, fields, methods, hes, rfl⟩ := hx
    exact ⟨_, (), _, rfl, ⟨interfaces, rfl⟩, _, (), _, rfl, ⟨fields, rfl⟩,
      methods, _, rfl, rfl, es, rfl, hes⟩

/-- What is made of the name of a class is made of the name that the slot stands for. -/
theorem accepts_className {α : Type} (index : UInt16) (f : String → α) :
    (resolved ((pool.className index).map f)).Accepts fun bs a =>
      bs = [] ∧ ∃ n, HoldsClass pool.slots.toList index n ∧ a = f n := by
  refine (accepts_resolved _).congr fun bs a => and_congr_right' ⟨fun hfound => ?_, ?_⟩
  · cases hname : pool.className index with
    | ok n =>
      rw [hname] at hfound
      exact ⟨n, ConstantPool.className_eq_ok_iff.mp hname, (Except.ok.inj hfound).symm⟩
    | error m =>
      rw [hname] at hfound
      cases hfound
  · intro hx
    obtain ⟨n, hn, rfl⟩ := hx
    rw [ConstantPool.className_eq_ok_iff.mpr hn]
    rfl

theorem accepts_readSuper (index : UInt16) :
    (readSuper pool index).Accepts fun bs superName => bs = [] ∧
      (index = 0 → superName = none) ∧
      (index ≠ 0 → ∃ n, HoldsClass pool.slots.toList index n ∧
        superName = some (ClassName.dotted n)) := by
  rw [readSuper]
  by_cases hzero : index = 0
  · rw [if_pos hzero]
    exact (accepts_pure none).congr fun bs superName => and_congr_right'
      ⟨fun hnone => ⟨fun _ => hnone, fun hne => absurd hzero hne⟩, fun hboth => hboth.1 hzero⟩
  · rw [if_neg hzero]
    exact (accepts_className pool index _).congr fun bs superName => and_congr_right'
      ⟨fun hsome => ⟨fun heq => absurd heq hzero, fun _ => hsome⟩, fun hboth => hboth.2 hzero⟩

/-- What follows the pool is read where it is laid out, and kept as the layout shows it. -/
theorem accepts_readBody (minorVersion majorVersion : UInt16) :
    (readBody minorVersion majorVersion pool).Accepts fun bs c => ∃ b : ClassBody,
      bs = b.octets ∧ c.minorVersion = minorVersion ∧ c.majorVersion = majorVersion ∧
        b.Shows pool.slots.toList c := by
  refine (Accepts.u16_bind fun access => Accepts.u16_bind fun thisIndex =>
    (accepts_className pool thisIndex _).bind_of_nil fun name => Accepts.u16_bind fun superIndex =>
    (accepts_readSuper pool superIndex).bind_of_nil fun superName =>
    (accepts_readTables pool name).map _).congr fun bs c => ⟨?_, ?_⟩
  · intro hx
    obtain ⟨access, _, rfl, thisIndex, _, rfl, _, hname, superIndex, _, rfl, superName,
      ⟨hnone, hsome⟩, _, ⟨interfaces, fields, methods, hes, rfl⟩, rfl⟩ := hx
    refine ⟨⟨access, thisIndex, superIndex, interfaces, fields, methods⟩, ?_, rfl, rfl,
      ⟨rfl, hname, hnone, hsome, hes⟩⟩
    simp only [ClassBody.octets, List.append_assoc]
  · intro hx
    obtain ⟨b, rfl, rfl, rfl, haccess, hname, hnone, hsome, hes⟩ := hx
    simp only [ClassBody.octets, List.append_assoc]
    refine ⟨b.access, _, rfl, b.thisIndex, _, rfl, c.name, hname, b.superIndex, _, rfl,
      c.superName, ⟨hnone, hsome⟩, c.methods, ⟨b.interfaces, b.fields, b.methods, hes, rfl⟩, ?_⟩
    rw [← haccess]

end Body

/-- Behind its first number, a class file is read where one is laid out. -/
theorem accepts_readVersioned :
    readVersioned.Accepts fun bs c => ∃ l : ClassLayout, bs = l.versioned ∧ l.Shows c := by
  refine (Accepts.u16_bind fun minorVersion => Accepts.u16_bind fun majorVersion =>
    ConstantPool.accepts_read.bind fun pool =>
    accepts_readBody pool minorVersion majorVersion).congr fun bs c => ⟨?_, ?_⟩
  · intro hx
    obtain ⟨_, _, rfl, _, _, rfl, _, pool, _, rfl, ⟨p, hslots, rfl⟩, b, rfl, rfl, rfl, hb⟩ := hx
    rw [hslots] at hb
    refine ⟨⟨c.minorVersion, c.majorVersion, p, b⟩, ?_, ⟨rfl, rfl, hb⟩⟩
    simp only [ClassLayout.versioned, List.append_assoc]
  · intro hx
    obtain ⟨l, rfl, hminor, hmajor, hb⟩ := hx
    simp only [ClassLayout.versioned, List.append_assoc]
    exact ⟨l.minorVersion, _, rfl, l.majorVersion, _, rfl, _, ⟨l.pool.slots.toArray⟩, _, rfl,
      ⟨l.pool, rfl, rfl⟩, l.body, rfl, hminor, hmajor, hb⟩

/-- The number that every class file starts with, as it is written. -/
theorem ofUInt32_magic : Bytes.ofUInt32 magic = [0xCA, 0xFE, 0xBA, 0xBE] := rfl

/-- **A class file is read exactly where one is laid out.** -/
theorem accepts_read :
    read.Accepts fun bs c => ∃ l : ClassLayout, bs = l.octets ∧ l.Shows c := by
  have hafter : ∀ start, Accepts
      (if start = magic then readVersioned else throw (.malformed (.magic start)))
      fun bs c => start = magic ∧ ∃ l : ClassLayout, bs = l.versioned ∧ l.Shows c := by
    intro start
    by_cases h : start = magic
    · rw [if_pos h]
      exact accepts_readVersioned.congr fun bs c => (and_iff_right h).symm
    · rw [if_neg h]
      exact (accepts_throw _).congr fun bs c => ⟨False.elim, fun hboth => absurd hboth.1 h⟩
  rw [read_eq]
  refine (accepts_u32.bind hafter).congr fun bs c => ⟨?_, ?_⟩
  · intro hx
    obtain ⟨_, _, _, rfl, rfl, rfl, l, rfl, hl⟩ := hx
    exact ⟨l, by rw [ofUInt32_magic, ClassLayout.octets], hl⟩
  · intro hx
    obtain ⟨l, rfl, hl⟩ := hx
    exact ⟨_, magic, l.versioned, by rw [ofUInt32_magic, ClassLayout.octets], rfl, rfl, l, rfl, hl⟩

/-- **Octets are parsed to a class exactly when they start with a layout that shows it.** -/
theorem parse_eq_ok_iff (data : Bytes) (c : ClassFile) :
    ClassFile.parse data = .ok c ↔
      ∃ (l : ClassLayout) (rest : Bytes), data = l.octets ++ rest ∧ l.Shows c := by
  rw [parse, answer_ofBytes_eq_ok_iff accepts_read]
  constructor
  · intro hx
    obtain ⟨_, rest, rfl, l, rfl, hl⟩ := hx
    exact ⟨l, rest, rfl, hl⟩
  · intro hx
    obtain ⟨l, rest, rfl, hl⟩ := hx
    exact ⟨l.octets, rest, rfl, l, rfl, hl⟩

end ClassFile

end SdkConformance
