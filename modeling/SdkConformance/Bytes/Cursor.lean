import SdkConformance.Bytes.Basic

/-!
# A reading position inside a byte sequence

A `Cursor` stands at an octet boundary of its data and carries the octets that are left, so that
a read costs what it reads. Its type says that the two views belong together: what is left is the
data without the first `pos` octets, and `pos` is never past the end.

* moves and reads answer `none` exactly when they would leave the data, and then nothing moved;
* `take?_eq_some_iff`: a read of `n` octets splits what is left after `n` octets.
-/

namespace SdkConformance

/-- A position in `data` together with the octets that follow it. -/
structure Cursor where
  /-- All octets, read and unread. -/
  data : Bytes
  /-- How many octets lie before the cursor. -/
  pos : Nat
  /-- The octets after the cursor. -/
  rest : Bytes
  drop_pos : data.drop pos = rest
  pos_le : pos ≤ data.length

namespace Cursor

/-! ## 1. Views -/

/-- The cursor at the start of `data`. -/
def ofBytes (data : Bytes) : Cursor := ⟨data, 0, data, rfl, Nat.zero_le _⟩

@[simp] theorem data_ofBytes (data : Bytes) : (ofBytes data).data = data := rfl
@[simp] theorem pos_ofBytes (data : Bytes) : (ofBytes data).pos = 0 := rfl
@[simp] theorem rest_ofBytes (data : Bytes) : (ofBytes data).rest = data := rfl

/-- How many octets the data has. -/
def size (c : Cursor) : Nat := c.data.length

/-- How many octets are left. -/
def remaining (c : Cursor) : Nat := c.data.length - c.pos

/-- Whether an octet is left. -/
def hasMore (c : Cursor) : Bool := !c.rest.isEmpty

theorem length_rest (c : Cursor) : c.rest.length = c.remaining := by
  rw [← c.drop_pos, List.length_drop]; rfl

theorem pos_add_remaining (c : Cursor) : c.pos + c.remaining = c.size := by
  have := c.pos_le
  simp only [remaining, size]; omega

theorem hasMore_iff (c : Cursor) : c.hasMore = true ↔ 0 < c.remaining := by
  rw [← c.length_rest]
  cases h : c.rest <;> simp [hasMore, h]

/-- Cursors over the same data at the same place are the same. -/
theorem ext' {c d : Cursor} (hdata : c.data = d.data) (hpos : c.pos = d.pos) : c = d := by
  obtain ⟨cd, cp, cr, hc, _⟩ := c
  obtain ⟨dd, dp, dr, hd, _⟩ := d
  simp only at hdata hpos
  subst hdata hpos hc hd
  rfl

/-! ## 2. Moves -/

/-- The cursor at the absolute position `n`; the end of the data is allowed. -/
def seek? (c : Cursor) (n : Nat) : Option Cursor :=
  if h : n ≤ c.data.length then some ⟨c.data, n, c.data.drop n, rfl, h⟩ else none

/-- The cursor `n` octets further on. -/
def advance? (c : Cursor) (n : Nat) : Option Cursor :=
  if h : holds n c.rest = true then
    some ⟨c.data, c.pos + n, c.rest.drop n, by rw [← c.drop_pos, List.drop_drop], by
      have h₁ := holds_iff.1 h
      have h₂ := c.pos_le
      rw [c.length_rest, remaining] at h₁
      omega⟩
  else none

theorem advance?_eq_none_iff (c : Cursor) (n : Nat) :
    c.advance? n = none ↔ c.remaining < n := by
  rw [← c.length_rest]
  simp [advance?, holds_iff]

theorem advance?_eq_some_iff (c c' : Cursor) (n : Nat) :
    c.advance? n = some c' ↔ n ≤ c.remaining ∧ c'.data = c.data ∧ c'.pos = c.pos + n := by
  rw [← c.length_rest]
  constructor
  · intro h
    simp only [advance?] at h
    split at h
    · rename_i hn
      cases h
      exact ⟨holds_iff.1 hn, rfl, rfl⟩
    · cases h
  · rintro ⟨hn, hdata, hpos⟩
    simp only [advance?, holds_iff, hn, dif_pos, Option.some.injEq]
    exact ext' hdata.symm hpos.symm

theorem seek?_eq_some_iff (c c' : Cursor) (n : Nat) :
    c.seek? n = some c' ↔ n ≤ c.size ∧ c'.data = c.data ∧ c'.pos = n := by
  constructor
  · intro h
    simp only [seek?] at h
    split at h
    · rename_i hn
      cases h
      exact ⟨hn, rfl, rfl⟩
    · cases h
  · rintro ⟨hn, hdata, hpos⟩
    simp only [seek?, size] at hn ⊢
    simp only [hn, dif_pos, Option.some.injEq]
    exact ext' hdata.symm hpos.symm

/-! ## 3. Reads -/

/-- The octet under the cursor. -/
def peek? (c : Cursor) : Option UInt8 := c.rest.head?

/-- The next octet, and the cursor behind it. -/
def next? (c : Cursor) : Option (UInt8 × Cursor) :=
  match c.peek?, c.advance? 1 with
  | some b, some c' => some (b, c')
  | _, _ => none

/-- The next `n` octets, and the cursor behind them. -/
def take? (c : Cursor) (n : Nat) : Option (Bytes × Cursor) :=
  (c.advance? n).map fun c' => (c.rest.take n, c')

/-- The unsigned number in the next `width` octets, most significant first. -/
def unsigned? (c : Cursor) (width : Nat) : Option (Nat × Cursor) :=
  (c.take? width).map fun (bs, c') => (Bytes.bigEndian bs, c')

/-- The number in two's complement in the next `width` octets, most significant first. -/
def signed? (c : Cursor) (width : Nat) : Option (Int × Cursor) :=
  (c.unsigned? width).map fun (n, c') => (twosComplement width n, c')

theorem rest_of_pos_eq {c c' : Cursor} {n : Nat} (hdata : c'.data = c.data)
    (hpos : c'.pos = c.pos + n) : c'.rest = c.rest.drop n := by
  rw [← c'.drop_pos, ← c.drop_pos, List.drop_drop, hdata, hpos]

/-- A read of `n` octets succeeds exactly when what is left starts with that many. -/
theorem take?_eq_some_iff (c c' : Cursor) (n : Nat) (bs : Bytes) :
    c.take? n = some (bs, c') ↔
      bs.length = n ∧ c.rest = bs ++ c'.rest ∧ c'.data = c.data ∧ c'.pos = c.pos + n := by
  simp only [take?, Option.map_eq_some_iff, Prod.mk.injEq, advance?_eq_some_iff]
  constructor
  · rintro ⟨d, ⟨hn, hdata, hpos⟩, rfl, rfl⟩
    rw [← c.length_rest] at hn
    refine ⟨by simp [hn], ?_, hdata, hpos⟩
    rw [rest_of_pos_eq hdata hpos, List.take_append_drop]
  · rintro ⟨hlen, hrest, hdata, hpos⟩
    refine ⟨c', ⟨?_, hdata, hpos⟩, ?_, rfl⟩
    · rw [← c.length_rest, hrest]; simp; omega
    · rw [hrest, ← hlen]; simp

/-- Reading one octet takes the first of what is left. -/
theorem next?_eq_some_iff (c c' : Cursor) (b : UInt8) :
    c.next? = some (b, c') ↔
      c.rest = b :: c'.rest ∧ c'.data = c.data ∧ c'.pos = c.pos + 1 := by
  constructor
  · intro h
    simp only [next?] at h
    split at h
    · rename_i b' d hb hd
      simp only [Option.some.injEq, Prod.mk.injEq] at h
      obtain ⟨rfl, rfl⟩ := h
      obtain ⟨_, hdata, hpos⟩ := (advance?_eq_some_iff ..).1 hd
      refine ⟨?_, hdata, hpos⟩
      rw [rest_of_pos_eq hdata hpos]
      cases hr : c.rest with
      | nil => simp [peek?, hr] at hb
      | cons x xs =>
        simp only [peek?, hr, List.head?_cons, Option.some.injEq] at hb
        simp [hb]
    · cases h
  · rintro ⟨hrest, hdata, hpos⟩
    have hadv : c.advance? 1 = some c' :=
      (advance?_eq_some_iff ..).2 ⟨by rw [← c.length_rest, hrest]; simp, hdata, hpos⟩
    simp [next?, hadv, peek?, hrest]

theorem next?_eq_none_iff (c : Cursor) : c.next? = none ↔ c.rest = [] := by
  constructor
  · intro h
    cases hr : c.rest with
    | nil => rfl
    | cons x xs =>
      have hadv : c.advance? 1 ≠ none := by
        rw [ne_eq, advance?_eq_none_iff, ← c.length_rest, hr]; simp
      obtain ⟨d, hd⟩ := Option.ne_none_iff_exists'.1 hadv
      simp [next?, peek?, hr, hd] at h
  · intro h; simp [next?, peek?, h]

theorem take?_eq_none_iff (c : Cursor) (n : Nat) : c.take? n = none ↔ c.remaining < n := by
  simp [take?, advance?_eq_none_iff]

end Cursor

end SdkConformance
