import Mathlib.Data.List.Induction
import SdkConformance.ClassFile.ByteReader
import SdkConformance.Proofs.Text.ModifiedUtf8Grammar

/-!
# The formats of readers

A format says which octets stand for which value. A reader accepts a format if it succeeds exactly
where such octets come next, answers their value and passes them and nothing else; a composed reader
accepts the composed format.

* `Cursor.Passes`: one cursor is another one, moved behind some octets;
* `ByteReader.Accepts`: the reader accepts a format;
* `Accepts.bind`: one reader after the other; `Accepts.times`: a reader so many times;
* `accepts_u8`, `accepts_u16`, `accepts_u32`, `accepts_skip`, `accepts_modifiedUtf8`: the formats of
  the single reads.
-/

namespace SdkConformance

/-! ## 1. Cursors -/

/-- The second cursor is the first one, moved behind these octets. -/
def Cursor.Passes (c : Cursor) (bs : Bytes) (d : Cursor) : Prop :=
  c.rest = bs ++ d.rest ∧ d.data = c.data ∧ d.pos = c.pos + bs.length

namespace Cursor

theorem passes_nil_iff {c d : Cursor} : c.Passes [] d ↔ d = c := by
  constructor
  · intro hx
    obtain ⟨_, hdata, hpos⟩ := hx
    exact ext' hdata hpos
  · intro hx
    subst hx
    exact ⟨rfl, rfl, rfl⟩

theorem Passes.append {c d e : Cursor} {as bs : Bytes} (h : c.Passes as d) (h' : d.Passes bs e) :
    c.Passes (as ++ bs) e := by
  obtain ⟨hrest, hdata, hpos⟩ := h
  obtain ⟨hrest', hdata', hpos'⟩ := h'
  refine ⟨?_, hdata'.trans hdata, ?_⟩
  · rw [hrest, hrest', List.append_assoc]
  · rw [hpos', hpos, List.length_append, Nat.add_assoc]

/-- Where there are enough octets, the cursor can move behind them. -/
theorem exists_advance? {c : Cursor} {n : Nat} (h : n ≤ c.remaining) :
    ∃ d : Cursor, c.advance? n = some d ∧ d.data = c.data ∧ d.pos = c.pos + n := by
  obtain ⟨d, hd⟩ : ∃ d, c.advance? n = some d :=
    Option.ne_none_iff_exists'.mp fun hnone =>
      absurd h (Nat.not_le.mpr ((c.advance?_eq_none_iff n).mp hnone))
  exact ⟨d, hd, ((c.advance?_eq_some_iff d n).mp hd).2⟩

/-- Octets that come next can be passed. -/
theorem exists_passes {c : Cursor} {bs rest : Bytes} (h : c.rest = bs ++ rest) :
    ∃ d, c.Passes bs d ∧ d.rest = rest := by
  have hlen : bs.length ≤ c.remaining := by
    rw [← c.length_rest, h, List.length_append]
    exact Nat.le_add_right _ _
  obtain ⟨d, -, hdata, hpos⟩ := exists_advance? hlen
  have hrest : d.rest = rest := by
    rw [rest_of_pos_eq hdata hpos, h, List.drop_left]
  exact ⟨d, ⟨by rw [hrest, h], hdata, hpos⟩, hrest⟩

/-- Octets are passed part by part. -/
theorem passes_append_iff {c e : Cursor} {as bs : Bytes} :
    c.Passes (as ++ bs) e ↔ ∃ d, c.Passes as d ∧ d.Passes bs e := by
  constructor
  · intro hx
    obtain ⟨hrest, hdata, hpos⟩ := hx
    rw [List.append_assoc] at hrest
    obtain ⟨d, hd, hdrest⟩ := exists_passes hrest
    refine ⟨d, hd, hdrest, hdata.trans hd.2.1.symm, ?_⟩
    rw [hpos, hd.2.2, List.length_append, Nat.add_assoc]
  · intro hx
    obtain ⟨d, hd, he⟩ := hx
    exact hd.append he

theorem take?_eq_some_iff_passes {c d : Cursor} {n : Nat} {bs : Bytes} :
    c.take? n = some (bs, d) ↔ bs.length = n ∧ c.Passes bs d := by
  rw [take?_eq_some_iff]
  constructor
  · intro hx
    obtain ⟨rfl, hpasses⟩ := hx
    exact ⟨rfl, hpasses⟩
  · intro hx
    obtain ⟨rfl, hpasses⟩ := hx
    exact ⟨rfl, hpasses⟩

end Cursor

/-! ## 2. Readers -/

namespace ByteReader

/-- The reader succeeds exactly where octets of the format come next; it answers their value and
    passes them. -/
def Accepts {α : Type} (r : ByteReader α) (format : Bytes → α → Prop) : Prop :=
  ∀ c a d, r c = .ok a d ↔ ∃ bs, format bs a ∧ c.Passes bs d

section Composed

variable {α β : Type}

theorem Accepts.congr {r : ByteReader α} {f g : Bytes → α → Prop} (hr : r.Accepts f)
    (h : ∀ bs a, f bs a ↔ g bs a) : r.Accepts g := by
  intro c a d
  rw [hr c a d]
  exact exists_congr fun bs => and_congr_left' (h bs a)

theorem accepts_pure (a : α) : Accepts (pure a) fun bs b => bs = [] ∧ b = a := by
  intro c b d
  show EStateM.Result.ok a c = EStateM.Result.ok b d ↔ _
  constructor
  · intro hx
    cases hx
    exact ⟨[], ⟨rfl, rfl⟩, Cursor.passes_nil_iff.mpr rfl⟩
  · intro hx
    obtain ⟨_, ⟨rfl, rfl⟩, hpasses⟩ := hx
    rw [Cursor.passes_nil_iff.mp hpasses]

theorem accepts_throw (e : Error) : Accepts (throw e : ByteReader α) fun _ _ => False := by
  intro c a d
  show EStateM.Result.error e c = EStateM.Result.ok a d ↔ _
  constructor
  · intro hx
    cases hx
  · intro hx
    obtain ⟨_, hfalse, _⟩ := hx
    exact hfalse.elim

theorem bind_eq_ok_iff {r : ByteReader α} {k : α → ByteReader β} {c e : Cursor} {b : β} :
    (r >>= k) c = .ok b e ↔ ∃ a d, r c = .ok a d ∧ k a d = .ok b e := by
  show EStateM.bind r k c = _ ↔ _
  unfold EStateM.bind
  cases r c with
  | ok a d =>
    constructor
    · intro h
      exact ⟨a, d, rfl, h⟩
    · intro hx
      obtain ⟨_, _, ⟨⟩, h⟩ := hx
      exact h
  | error x d =>
    constructor
    · intro hx
      cases hx
    · intro hx
      obtain ⟨_, _, ⟨⟩, _⟩ := hx

/-- **One reader after the other accepts the one format after the other.** -/
theorem Accepts.bind {r : ByteReader α} {k : α → ByteReader β} {f : Bytes → α → Prop}
    {g : α → Bytes → β → Prop} (hr : r.Accepts f) (hk : ∀ a, (k a).Accepts (g a)) :
    (r >>= k).Accepts fun bs b => ∃ as a cs, bs = as ++ cs ∧ f as a ∧ g a cs b := by
  intro c b e
  rw [bind_eq_ok_iff]
  constructor
  · intro hx
    obtain ⟨a, d, hrd, hkd⟩ := hx
    obtain ⟨as, has, hpasses⟩ := (hr c a d).mp hrd
    obtain ⟨cs, hcs, hpasses'⟩ := (hk a d b e).mp hkd
    exact ⟨as ++ cs, ⟨as, a, cs, rfl, has, hcs⟩, hpasses.append hpasses'⟩
  · intro hx
    obtain ⟨_, ⟨as, a, cs, rfl, has, hcs⟩, hpasses⟩ := hx
    obtain ⟨d, hd, he⟩ := Cursor.passes_append_iff.mp hpasses
    exact ⟨a, d, (hr c a d).mpr ⟨as, has, hd⟩, (hk a d b e).mpr ⟨cs, hcs, he⟩⟩

/-- What passes nothing, and a reader after it. -/
theorem Accepts.bind_of_nil {r : ByteReader α} {k : α → ByteReader β} {valid : α → Prop}
    {g : α → Bytes → β → Prop} (hr : r.Accepts fun bs a => bs = [] ∧ valid a)
    (hk : ∀ a, (k a).Accepts (g a)) :
    (r >>= k).Accepts fun bs b => ∃ a, valid a ∧ g a bs b := by
  refine (hr.bind hk).congr fun bs b => ⟨?_, ?_⟩
  · intro hx
    obtain ⟨_, a, cs, rfl, ⟨rfl, ha⟩, hcs⟩ := hx
    exact ⟨a, ha, hcs⟩
  · intro hx
    obtain ⟨a, ha, hcs⟩ := hx
    exact ⟨[], a, bs, rfl, ⟨rfl, ha⟩, hcs⟩

/-- A reader of which the value is made into another one. -/
theorem Accepts.map {r : ByteReader α} {f : Bytes → α → Prop} (hr : r.Accepts f) (make : α → β) :
    (r >>= fun a => pure (make a)).Accepts fun bs b => ∃ a, f bs a ∧ b = make a := by
  refine (hr.bind fun a => accepts_pure (make a)).congr fun bs b => ⟨?_, ?_⟩
  · intro hx
    obtain ⟨as, a, _, rfl, ha, rfl, rfl⟩ := hx
    exact ⟨a, by rw [List.append_nil]; exact ha, rfl⟩
  · intro hx
    obtain ⟨a, ha, rfl⟩ := hx
    exact ⟨bs, a, [], (List.append_nil bs).symm, ha, rfl, rfl⟩

/-- A reader without a value, so many times: each time it passes the octets of some item. -/
theorem Accepts.times {ι : Type} {octetsOf : ι → Bytes} {r : ByteReader Unit}
    {loop : Nat → ByteReader Unit} (hr : r.Accepts fun bs _ => ∃ x, bs = octetsOf x)
    (hzero : loop 0 = pure ()) (hsucc : ∀ n, loop (n + 1) = r >>= fun _ => loop n) (n : Nat) :
    (loop n).Accepts fun bs _ => ∃ xs : List ι, xs.length = n ∧ bs = xs.flatMap octetsOf := by
  induction n with
  | zero =>
    rw [hzero]
    refine (accepts_pure ()).congr fun bs _ => ⟨?_, ?_⟩
    · intro hx
      obtain ⟨rfl, -⟩ := hx
      exact ⟨[], rfl, rfl⟩
    · intro hx
      obtain ⟨xs, hlen, rfl⟩ := hx
      rw [List.length_eq_zero_iff.mp hlen]
      exact ⟨rfl, rfl⟩
  | succ n ih =>
    rw [hsucc]
    refine (hr.bind fun _ => ih).congr fun bs _ => ⟨?_, ?_⟩
    · intro hx
      obtain ⟨_, _, _, rfl, ⟨x, rfl⟩, xs, hlen, rfl⟩ := hx
      exact ⟨x :: xs, congrArg (· + 1) hlen, rfl⟩
    · intro hx
      obtain ⟨xs, hlen, rfl⟩ := hx
      obtain ⟨x, xs, rfl⟩ := List.exists_cons_of_length_eq_add_one hlen
      exact ⟨octetsOf x, (), xs.flatMap octetsOf, rfl, ⟨x, rfl⟩, xs, Nat.succ.inj hlen, rfl⟩

/-- A reader that accepts a format answers at the start of some octets what their first octets
    stand for. -/
theorem answer_ofBytes_eq_ok_iff {r : ByteReader α} {format : Bytes → α → Prop}
    (hr : r.Accepts format) {data : Bytes} {a : α} :
    r.answer (.ofBytes data) = .ok a ↔ ∃ bs rest, data = bs ++ rest ∧ format bs a := by
  have hanswer : r.answer (.ofBytes data) = .ok a ↔ ∃ d, r (.ofBytes data) = .ok a d := by
    rw [answer]
    cases r (.ofBytes data) with
    | ok b d =>
      constructor
      · intro hx
        cases hx
        exact ⟨d, rfl⟩
      · intro hx
        obtain ⟨_, ⟨⟩⟩ := hx
        rfl
    | error e d =>
      constructor
      · intro hx
        cases hx
      · intro hx
        obtain ⟨_, ⟨⟩⟩ := hx
  rw [hanswer]
  constructor
  · intro hx
    obtain ⟨d, hd⟩ := hx
    obtain ⟨bs, hbs, hpasses⟩ := (hr _ a d).mp hd
    exact ⟨bs, d.rest, hpasses.1, hbs⟩
  · intro hx
    obtain ⟨bs, rest, hdata, hbs⟩ := hx
    obtain ⟨d, hpasses, -⟩ := Cursor.exists_passes (show (Cursor.ofBytes data).rest = _ from hdata)
    exact ⟨d, (hr _ a d).mpr ⟨bs, hbs, hpasses⟩⟩

end Composed

end ByteReader

/-! ## 3. Numbers -/

namespace Bytes

/-- The two octets of a number. -/
def ofUInt16 (n : UInt16) : Bytes := ofNatBigEndian 2 n.toNat

/-- The four octets of a number. -/
def ofUInt32 (n : UInt32) : Bytes := ofNatBigEndian 4 n.toNat

@[simp] theorem length_ofUInt16 (n : UInt16) : (ofUInt16 n).length = 2 :=
  length_ofNatBigEndian 2 _

theorem bigEndian_lt_span (bs : Bytes) : bigEndian bs < span bs.length := by
  induction bs using List.reverseRecOn with
  | nil => exact Nat.one_pos
  | append_singleton init b ih =>
    have hb : b.toNat < 256 := b.toNat_lt
    rw [bigEndian_concat, List.length_append, List.length_singleton, span_succ]
    omega

/-- Octets are those of their number. -/
theorem ofNatBigEndian_bigEndian (bs : Bytes) : ofNatBigEndian bs.length (bigEndian bs) = bs := by
  induction bs using List.reverseRecOn with
  | nil => rfl
  | append_singleton init b ih =>
    have hb : b.toNat < 256 := b.toNat_lt
    have hdiv : (bigEndian init * 256 + b.toNat) / 256 = bigEndian init := by omega
    have hmod : UInt8.ofNat (bigEndian init * 256 + b.toNat) = b := by
      apply UInt8.toNat_inj.mp
      rw [UInt8.toNat_ofNat']
      omega
    rw [bigEndian_concat, List.length_append, List.length_singleton, ofNatBigEndian, hdiv, hmod,
      ih]

theorem ofUInt16_ofNat_bigEndian {bs : Bytes} (h : bs.length = 2) :
    ofUInt16 (UInt16.ofNat (bigEndian bs)) = bs := by
  have hlt := bigEndian_lt_span bs
  rw [h] at hlt
  rw [ofUInt16, UInt16.toNat_ofNat_of_lt' hlt, ← h, ofNatBigEndian_bigEndian]

theorem ofUInt32_ofNat_bigEndian {bs : Bytes} (h : bs.length = 4) :
    ofUInt32 (UInt32.ofNat (bigEndian bs)) = bs := by
  have hlt := bigEndian_lt_span bs
  rw [h] at hlt
  rw [ofUInt32, UInt32.toNat_ofNat_of_lt' hlt, ← h, ofNatBigEndian_bigEndian]

theorem ofNat_bigEndian_ofUInt16 (n : UInt16) : UInt16.ofNat (bigEndian (ofUInt16 n)) = n := by
  have hn : n.toNat < span 2 := n.toNat_lt
  rw [ofUInt16, bigEndian_ofNatBigEndian, Nat.mod_eq_of_lt hn, UInt16.ofNat_toNat]

theorem ofNat_bigEndian_ofUInt32 (n : UInt32) : UInt32.ofNat (bigEndian (ofUInt32 n)) = n := by
  have hn : n.toNat < span 4 := n.toNat_lt
  rw [ofUInt32, bigEndian_ofNatBigEndian, Nat.mod_eq_of_lt hn, UInt32.ofNat_toNat]

/-- Octets of an even number are those of numbers. -/
theorem exists_flatMap_ofUInt16 {n : Nat} {bs : Bytes} (h : bs.length = n * 2) :
    ∃ ns : List UInt16, ns.length = n ∧ bs = ns.flatMap ofUInt16 := by
  induction n generalizing bs with
  | zero => exact ⟨[], rfl, List.length_eq_zero_iff.mp (h.trans (Nat.zero_mul 2))⟩
  | succ n ih =>
    have htwo : (bs.take 2).length = 2 := by
      rw [List.length_take]; omega
    have hrest : (bs.drop 2).length = n * 2 := by
      rw [List.length_drop]; omega
    obtain ⟨ns, hns, hdrop⟩ := ih hrest
    refine ⟨UInt16.ofNat (bigEndian (bs.take 2)) :: ns, congrArg (· + 1) hns, ?_⟩
    rw [List.flatMap_cons, ofUInt16_ofNat_bigEndian htwo, ← hdrop, List.take_append_drop]

theorem length_flatMap_ofUInt16 (ns : List UInt16) :
    (ns.flatMap ofUInt16).length = ns.length * 2 := by
  induction ns with
  | nil => rfl
  | cons n ns ih =>
    rw [List.flatMap_cons, List.length_append, length_ofUInt16, ih, List.length_cons]
    omega

end Bytes

/-! ## 4. Single reads -/

namespace ByteReader

theorem ofCursor_eq_ok_iff {α : Type} {read? : Cursor → Option (α × Cursor)} {c d : Cursor}
    {a : α} : ofCursor read? c = .ok a d ↔ read? c = some (a, d) := by
  unfold ofCursor
  cases read? c with
  | none =>
    constructor
    · intro hx
      cases hx
    · intro hx
      cases hx
  | some x =>
    constructor
    · intro hx
      cases hx
      rfl
    · intro hx
      cases hx
      rfl

theorem accepts_octets (n : Nat) : (octets n).Accepts fun bs a => bs.length = n ∧ a = bs := by
  intro c a d
  rw [octets, ofCursor_eq_ok_iff, Cursor.take?_eq_some_iff_passes]
  constructor
  · intro hx
    obtain ⟨hlen, hpasses⟩ := hx
    exact ⟨a, ⟨hlen, rfl⟩, hpasses⟩
  · intro hx
    obtain ⟨bs, ⟨hlen, rfl⟩, hpasses⟩ := hx
    exact ⟨hlen, hpasses⟩

theorem accepts_skip (n : Nat) : (skip n).Accepts fun bs _ => bs.length = n := by
  intro c a d
  have htake : (skip n) c = .ok a d ↔ ∃ bs, c.take? n = some (bs, d) := by
    rw [skip, ofCursor_eq_ok_iff]
    simp [Cursor.take?]
  rw [htake]
  exact exists_congr fun bs => Cursor.take?_eq_some_iff_passes

theorem accepts_u8 : u8.Accepts fun bs a => bs = [a] := by
  intro c a d
  rw [u8, ofCursor_eq_ok_iff, Cursor.next?_eq_some_iff]
  constructor
  · intro h
    exact ⟨[a], rfl, h⟩
  · intro hx
    obtain ⟨_, rfl, h⟩ := hx
    exact h

theorem accepts_unsigned (width : Nat) :
    (unsigned width).Accepts fun bs n => bs.length = width ∧ n = Bytes.bigEndian bs := by
  intro c n d
  have htake : (unsigned width) c = .ok n d ↔
      ∃ bs, c.take? width = some (bs, d) ∧ n = Bytes.bigEndian bs := by
    rw [unsigned, ofCursor_eq_ok_iff, Cursor.unsigned?, Option.map_eq_some_iff]
    constructor
    · intro hx
      obtain ⟨⟨bs, _⟩, htake, ⟨⟩⟩ := hx
      exact ⟨bs, htake, rfl⟩
    · intro hx
      obtain ⟨bs, htake, rfl⟩ := hx
      exact ⟨(bs, d), htake, rfl⟩
  rw [htake]
  refine exists_congr fun bs => ?_
  rw [Cursor.take?_eq_some_iff_passes]
  exact and_right_comm

theorem accepts_u16 : u16.Accepts fun bs n => bs = Bytes.ofUInt16 n := by
  refine ((accepts_unsigned 2).map UInt16.ofNat).congr fun bs n => ⟨?_, ?_⟩
  · intro hx
    obtain ⟨_, ⟨hlen, rfl⟩, rfl⟩ := hx
    exact (Bytes.ofUInt16_ofNat_bigEndian hlen).symm
  · intro hx
    subst hx
    exact ⟨_, ⟨Bytes.length_ofUInt16 n, rfl⟩, (Bytes.ofNat_bigEndian_ofUInt16 n).symm⟩

theorem accepts_u32 : u32.Accepts fun bs n => bs = Bytes.ofUInt32 n := by
  refine ((accepts_unsigned 4).map UInt32.ofNat).congr fun bs n => ⟨?_, ?_⟩
  · intro hx
    obtain ⟨_, ⟨hlen, rfl⟩, rfl⟩ := hx
    exact (Bytes.ofUInt32_ofNat_bigEndian hlen).symm
  · intro hx
    subst hx
    exact ⟨_, ⟨Bytes.length_ofNatBigEndian 4 _, rfl⟩, (Bytes.ofNat_bigEndian_ofUInt32 n).symm⟩

/-- A number of two octets, and a reader after it. -/
theorem Accepts.u16_bind {β : Type} {k : UInt16 → ByteReader β} {g : UInt16 → Bytes → β → Prop}
    (hk : ∀ n, (k n).Accepts (g n)) :
    (u16 >>= k).Accepts fun bs b => ∃ n cs, bs = Bytes.ofUInt16 n ++ cs ∧ g n cs b := by
  refine (accepts_u16.bind hk).congr fun bs b => ⟨?_, ?_⟩
  · intro hx
    obtain ⟨_, n, cs, rfl, rfl, hcs⟩ := hx
    exact ⟨n, cs, rfl, hcs⟩
  · intro hx
    obtain ⟨n, cs, rfl, hcs⟩ := hx
    exact ⟨_, n, cs, rfl, rfl, hcs⟩

/-- A reader that passes nothing and goes by an answer that is there already. -/
theorem accepts_of_except {ε α β : Type} {x : Except ε α} {f : α → β} {r : ByteReader β}
    (hok : ∀ a, x = .ok a → r = pure (f a)) (herror : ∀ e, x = .error e → ∃ e', r = throw e') :
    r.Accepts fun bs b => bs = [] ∧ ∃ a, x = .ok a ∧ b = f a := by
  cases x with
  | ok a =>
    rw [hok a rfl]
    refine (accepts_pure (f a)).congr fun bs b => and_congr_right' ⟨fun h => ⟨a, rfl, h⟩, ?_⟩
    intro hx
    obtain ⟨_, ⟨⟩, h⟩ := hx
    exact h
  | error e =>
    obtain ⟨e', rfl⟩ := herror e rfl
    refine (accepts_throw e').congr fun bs b => ⟨False.elim, ?_⟩
    intro hx
    obtain ⟨-, _, ⟨⟩, -⟩ := hx

/-- A text of so many octets is the one whose units they spell. -/
theorem accepts_modifiedUtf8 (n : Nat) :
    (modifiedUtf8 n).Accepts fun bs s =>
      bs.length = n ∧ ModifiedUtf8.Spells bs (Utf16.encode s.toList) := by
  rw [modifiedUtf8]
  refine Accepts.congr (Accepts.bind (accepts_octets n) fun as =>
    @accepts_of_except _ _ _ (ModifiedUtf8.decode as) id _ (fun s hs => ?_)
      fun fault hfault => ⟨.malformed (.undecodable fault), ?_⟩) fun bs s => ?_
  · rw [hs]; rfl
  · rw [hfault]
  rw [← ModifiedUtf8.decode_eq_ok_iff]
  constructor
  · intro hx
    obtain ⟨as, _, _, rfl, ⟨hlen, rfl⟩, rfl, _, hs, rfl⟩ := hx
    rw [List.append_nil]
    exact ⟨hlen, hs⟩
  · intro hx
    obtain ⟨hlen, hs⟩ := hx
    exact ⟨bs, bs, [], (List.append_nil _).symm, ⟨hlen, rfl⟩, rfl, s, hs, rfl⟩

end ByteReader

end SdkConformance
