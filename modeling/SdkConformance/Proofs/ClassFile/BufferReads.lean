import SdkConformance.Proofs.ClassFile.TextReading

/-!
# Reading from a bare buffer

A cursor knows that it stands inside its data, and its operations have a result everywhere. A bare
buffer is octets and a position of which nothing is known: an end is found by a sum that must fit
an address, and octets are taken by a slice that must lie inside the data. A run ends where such an
operation has no result.

* `Address.add?`, `Address.sub?`, `Bytes.slice?`: operations that are not always there;
* `Halt`: a run that panics, one that reports a failure, and one that reports it from a branch which
  is there for what cannot happen;
* `BufferReader.octets`, `unsigned`, `modifiedUtf8`: the reads, written with these operations;
* `Matches`: a run on a buffer comes to what a reader comes to, and to no `panic` and no `defended`;
  `Matches.bind` for one read after the other, `Follows` for every place in any data;
* `Sound`: the same of a whole run, which answers without a position.
-/

namespace SdkConformance

/-! ## 1. Operations that are not always there -/

namespace Address

/-- A number, if it fits the 64 bits of addresses and sizes. -/
def ofNat? (n : Nat) : Option Nat := if n < UInt64.size then some n else none

def add? (a b : Nat) : Option Nat := ofNat? (a + b)

def mul? (a b : Nat) : Option Nat := ofNat? (a * b)

/-- A difference, if it is not below zero. -/
def sub? (a b : Nat) : Option Nat := if b ≤ a then some (a - b) else none

theorem add?_of_lt {a b : Nat} (h : a + b < UInt64.size) : add? a b = some (a + b) := if_pos h

theorem mul?_of_lt {a b : Nat} (h : a * b < UInt64.size) : mul? a b = some (a * b) := if_pos h

theorem size_le_of_add? {a b : Nat} (h : add? a b = none) : UInt64.size ≤ a + b := by
  unfold add? ofNat? at h
  split at h
  · cases h
  · exact Nat.not_lt.mp ‹_›

theorem eq_add_of_add? {a b n : Nat} (h : add? a b = some n) : n = a + b := by
  unfold add? ofNat? at h
  split at h
  · exact (Option.some.inj h).symm
  · cases h

end Address

/-- The octets from one position to another, if these are in order and inside the data. -/
def Bytes.slice? (bs : Bytes) (first last : Nat) : Option Bytes :=
  if first ≤ last ∧ last ≤ bs.length then some ((bs.take last).drop first) else none

/-- A cursor can slice any octets that are left. -/
theorem Cursor.slice?_eq (c : Cursor) {n : Nat} (h : n ≤ c.remaining) :
    c.data.slice? c.pos (c.pos + n) = some (c.rest.take n) := by
  have hsum := c.pos_add_remaining
  have hsize : c.size = c.data.length := rfl
  rw [Bytes.slice?, if_pos ⟨Nat.le_add_right _ _, by omega⟩, List.drop_take, c.drop_pos,
    Nat.add_sub_cancel_left]

/-! ## 2. Runs on buffers -/

/-- Octets and a position, of which nothing is known. -/
structure Buffer where
  data : Bytes
  position : Nat

/-- Why a run ends without a value. -/
inductive Halt (ε : Type) where
  /-- An operation has no result. -/
  | panic
  /-- A failure is reported by a branch that is there for what cannot happen. -/
  | defended (e : ε)
  /-- A failure is reported. -/
  | reported (e : ε)

/-- The same end of a run, with another failure. -/
def Halt.map {ε ζ : Type} (f : ε → ζ) : Halt ε → Halt ζ
  | .panic => .panic
  | .defended e => .defended (f e)
  | .reported e => .reported (f e)

/-- A computation that reads on in a buffer. -/
abbrev BufferReader (ε α : Type) := StateT Buffer (Except (Halt ε)) α

/-- The failures of a kind of readers. -/
class ReadFailure (ε : Type) where
  /-- The data ends too early. -/
  outOfBounds : ε
  /-- Only branches that are there for what cannot happen report this. -/
  Defended : ε → Prop
  not_defended : ¬ Defended outOfBounds

section Ends

variable {ε α : Type} {m : Type → Type} [Monad m] [MonadExcept (Halt ε) m]

/-- The value of an operation, or a panic where it has none. -/
def must (x : Option α) : m α :=
  match x with
  | some a => pure a
  | none => throw .panic

def report (e : ε) : m α := throw (.reported e)

def defend (e : ε) : m α := throw (.defended e)

end Ends

/-- Where the next `n` octets end. -/
def Buffer.endOf {ε : Type} [ReadFailure ε] (b : Buffer) (n : Nat) : Except (Halt ε) Nat :=
  match Address.add? b.position n with
  | none => report ReadFailure.outOfBounds
  | some last => if b.data.length < last then report ReadFailure.outOfBounds else pure last

namespace BufferReader

section Runs

variable {ε α β : Type} {p : BufferReader ε α} {k : α → BufferReader ε β} {b b' : Buffer}

/-- Behind a value, a run goes on where the value was read. -/
theorem bind_of_ok {a : α} (h : p b = .ok (a, b')) : (p >>= k) b = k a b' := by
  have hbind : (p >>= k) b = p b >>= fun r => k r.1 r.2 := rfl
  rw [hbind, h]
  rfl

theorem bind_of_error {halt : Halt ε} (h : p b = .error halt) : (p >>= k) b = .error halt := by
  have hbind : (p >>= k) b = p b >>= fun r => k r.1 r.2 := rfl
  rw [hbind, h]
  rfl

theorem get_bind {k : Buffer → BufferReader ε β} : (get >>= k) b = k b b := rfl

/-- An operation that has a value goes on with it. -/
theorem must_bind {x : Option α} {a : α} (h : x = some a) : (must x >>= k) b = k a b := by
  rw [h]
  rfl

end Runs

section Reads

variable {ε : Type} [ReadFailure ε]

/-- The next `n` octets. -/
def octets (n : Nat) : BufferReader ε Bytes := fun b => do
  let last ← b.endOf n
  let bs ← must (b.data.slice? b.position last)
  return (bs, { b with position := last })

/-- Passes `n` octets. -/
def advance (n : Nat) : BufferReader ε Unit := fun b => do
  let last ← b.endOf n
  return ((), { b with position := last })

/-- The octet at the position, which stays where it is. -/
def peek : BufferReader ε UInt8 := fun b =>
  if b.data.length ≤ b.position then report ReadFailure.outOfBounds
  else do return (← must b.data[b.position]?, b)

/-- The unsigned number in `width` octets, most significant first. A slice of another length could
    not be taken for so many octets, which is defended against. -/
def unsigned (width : Nat) : BufferReader ε Nat := fun b => do
  let last ← b.endOf width
  let bs ← must (b.data.slice? b.position last)
  if bs.length = width then return (Bytes.bigEndian bs, { b with position := last })
  else defend ReadFailure.outOfBounds

def u8 : BufferReader ε UInt8 := do return UInt8.ofNat (← unsigned 1)

def u16 : BufferReader ε UInt16 := do return UInt16.ofNat (← unsigned 2)

def u32 : BufferReader ε UInt32 := do return UInt32.ofNat (← unsigned 4)

end Reads

end BufferReader

/-! ## 3. Runs that come to what a reader comes to -/

/-- The buffer of a cursor, without what the cursor knows of it. -/
def Cursor.buffer (c : Cursor) : Buffer := ⟨c.data, c.pos⟩

/-- A run on a buffer comes to what a reader comes to, and never to one of the failures that are
    defended against. -/
inductive Matches {ε α : Type} [ReadFailure ε] (data : Bytes) :
    Except (Halt ε) (α × Buffer) → Except ε (α × Cursor) → Prop
  /-- Both come to a value, and to the same position. -/
  | ok (a : α) {d : Cursor} (hdata : d.data = data) : Matches data (.ok (a, d.buffer)) (.ok (a, d))
  /-- Both report the same. -/
  | error {e : ε} (h : ¬ ReadFailure.Defended e) : Matches data (.error (.reported e)) (.error e)
  /-- There are more octets than addresses can count, and the run reports that they are too few. -/
  | beyond {x : Except ε (α × Cursor)} (hsize : UInt64.size ≤ data.length)
      (hdata : ∀ a d, x = .ok (a, d) → d.data = data)
      (h : ∀ e, x = .error e → ¬ ReadFailure.Defended e) :
      Matches data (.error (.reported ReadFailure.outOfBounds)) x

/-- A whole run over so many octets is sound. -/
structure Sound {ε α : Type} [ReadFailure ε] (size : Nat) (run : Except (Halt ε) α)
    (answer : Except ε α) : Prop where
  /-- No operation of it lacks a result. -/
  no_panic : run ≠ .error .panic
  /-- No branch is taken that is there for what cannot happen. -/
  no_defence : ∀ e, run ≠ .error (.defended e)
  /-- It answers as the reader does, as addresses can count the octets in any memory. -/
  same : size < UInt64.size → run = answer.mapError .reported
  /-- What the reader reports is none of the failures that are defended against. -/
  not_defended : ∀ e, answer = .error e → ¬ ReadFailure.Defended e

section Matching

variable {ε α β : Type} [ReadFailure ε] {data : Bytes} {p : BufferReader ε α} {b : Buffer}
  {x : Except ε (α × Cursor)} {y : Except (Halt ε) (α × Buffer)} {size : Nat}

/-- A reader stays in the data of a run that matches. -/
theorem Matches.data_eq (h : Matches data y x) : ∀ a d, x = .ok (a, d) → d.data = data := by
  intro a d hx
  cases h with
  | ok a' hdata =>
    cases hx
    exact hdata
  | error h => cases hx
  | beyond hsize hdata h => exact hdata a d hx

theorem Matches.not_defended (h : Matches data y x) :
    ∀ e, x = .error e → ¬ ReadFailure.Defended e := by
  intro e hx
  cases h with
  | ok a hdata => cases hx
  | error h =>
    cases hx
    exact h
  | beyond hsize hdata h => exact h e hx

/-- **One read after the other.** The second one goes on where a reader can have stopped. -/
theorem Matches.bind {k : α → BufferReader ε β} {l : α × Cursor → Except ε (β × Cursor)}
    (h : Matches data (p b) x)
    (hk : ∀ a d, x = .ok (a, d) → d.data = data → Matches data (k a d.buffer) (l (a, d))) :
    Matches data ((p >>= k) b) (x >>= l) := by
  have hbind : (p >>= k) b = p b >>= fun r => k r.1 r.2 := rfl
  rw [hbind]
  generalize p b = run at h
  cases h with
  | ok a hdata => exact hk a _ rfl hdata
  | error h => exact .error h
  | beyond hsize hdata h =>
    -- the run has ended, but what the reader does next still stays in the data
    cases x with
    | error e => exact .beyond hsize nofun fun e' he => h e' (by cases he; rfl)
    | ok read =>
      have hrest := hk read.1 read.2 rfl (hdata _ _ rfl)
      exact .beyond hsize hrest.data_eq hrest.not_defended

/-- Behind a value that is known. -/
theorem Matches.bind_ok {a : α} {d : Cursor} {k : α → BufferReader ε β}
    {z : Except ε (β × Cursor)} (h : Matches data (p b) (.ok (a, d)))
    (hk : Matches data (k a d.buffer) z) : Matches data ((p >>= k) b) z := by
  refine h.bind (l := fun _ => z) fun a' d' hread _ => ?_
  cases hread
  exact hk

theorem Matches.map {f : α → β} (h : Matches data (p b) x) :
    Matches data ((p >>= fun a => pure (f a)) b) (x.map fun r => (f r.1, r.2)) := by
  have hmap : x.map (fun r => (f r.1, r.2)) = x >>= fun r => .ok (f r.1, r.2) := by
    cases x <;> rfl
  rw [hmap]
  exact h.bind fun a d _ hdata => .ok (f a) hdata

theorem sound_ok (a : α) : Sound size (.ok a : Except (Halt ε) α) (.ok a) where
  no_panic := nofun
  no_defence := nofun
  same _ := rfl
  not_defended := nofun

theorem sound_error {e : ε} (h : ¬ ReadFailure.Defended e) :
    Sound size (.error (.reported e) : Except (Halt ε) α) (.error e) where
  no_panic := nofun
  no_defence := nofun
  same _ := rfl
  not_defended _ he := by
    cases he
    exact h

theorem sound_beyond {answer : Except ε α} (hsize : UInt64.size ≤ size)
    (h : ∀ e, answer = .error e → ¬ ReadFailure.Defended e) :
    Sound size (.error (.reported ReadFailure.outOfBounds)) answer where
  no_panic := nofun
  no_defence := nofun
  same hlt := absurd hlt (Nat.not_lt.mpr hsize)
  not_defended := h

/-- A run whose last part answers without a position. -/
theorem Matches.sound_bind {k : α → BufferReader ε β} {l : α × Cursor → Except ε β}
    (h : Matches data (p b) x)
    (hk : ∀ a d, x = .ok (a, d) → d.data = data →
      Sound data.length ((k a d.buffer).map Prod.fst) (l (a, d))) :
    Sound data.length (((p >>= k) b).map Prod.fst) (x >>= l) := by
  have hbind : (p >>= k) b = p b >>= fun r => k r.1 r.2 := rfl
  rw [hbind]
  generalize p b = run at h
  cases h with
  | ok a hdata => exact hk a _ rfl hdata
  | error h => exact sound_error h
  | beyond hsize hdata h =>
    cases x with
    | error e => exact sound_beyond hsize fun e' he => h e' (by cases he; rfl)
    | ok read => exact sound_beyond hsize (hk read.1 read.2 rfl (hdata _ _ rfl)).not_defended

/-- A run that matches answers as the reader does, the position apart. -/
theorem Matches.sound (h : Matches data (p b) x) :
    Sound data.length ((p b).map Prod.fst) (x.map Prod.fst) := by
  have hmap : x.map Prod.fst = x >>= fun r => .ok r.1 := by cases x <;> rfl
  have hbind : p = p >>= pure := (bind_pure p).symm
  rw [hmap, hbind]
  exact h.sound_bind fun a d _ _ => sound_ok a

/-- What an operation of cursors answers, where no answer is a failure for want of data. -/
def orOutOfBounds (x : Option (α × Cursor)) : Except ε (α × Cursor) :=
  match x with
  | some r => .ok r
  | none => .error ReadFailure.outOfBounds

end Matching

/-! ## 4. Single reads -/

section Reads

variable {ε : Type} [ReadFailure ε] {c : Cursor} {n : Nat}

/-- Where there are enough octets, they end behind the position, unless addresses cannot count
    them. -/
theorem Cursor.endOf_of_le (h : n ≤ c.remaining) :
    (c.buffer.endOf n : Except (Halt ε) Nat) = .ok (c.pos + n) ∨
      UInt64.size ≤ c.data.length ∧
        (c.buffer.endOf n : Except (Halt ε) Nat) =
          .error (.reported ReadFailure.outOfBounds) := by
  have hsum := c.pos_add_remaining
  have hsize : c.size = c.data.length := rfl
  unfold Buffer.endOf
  cases hadd : Address.add? c.buffer.position n with
  | none =>
    have hlarge := Address.size_le_of_add? hadd
    change UInt64.size ≤ c.pos + n at hlarge
    exact Or.inr ⟨by omega, rfl⟩
  | some last =>
    obtain rfl := Address.eq_add_of_add? hadd
    exact Or.inl (if_neg (show ¬ c.data.length < c.pos + n by omega))

theorem Cursor.endOf_of_lt (h : c.remaining < n) :
    (c.buffer.endOf n : Except (Halt ε) Nat) = .error (.reported ReadFailure.outOfBounds) := by
  have hsum := c.pos_add_remaining
  unfold Buffer.endOf
  cases hadd : Address.add? c.buffer.position n with
  | none => rfl
  | some last =>
    obtain rfl := Address.eq_add_of_add? hadd
    exact if_pos (show c.size < c.pos + n by omega)

/-- A read that finds its end first: it comes to an operation of cursors that moves as far, if its
    rest does so behind an end that is there. -/
theorem matches_of_endOf {α : Type} {rest : Nat → Except (Halt ε) (α × Buffer)}
    {x : Option (α × Cursor)} (hnone : c.remaining < n → x = none)
    (hsome : n ≤ c.remaining → ∃ a d, x = some (a, d) ∧ d.data = c.data ∧
      rest (c.pos + n) = .ok (a, d.buffer)) :
    Matches c.data (c.buffer.endOf n >>= rest) (orOutOfBounds x) := by
  rcases Nat.lt_or_ge c.remaining n with hlt | hle
  · rw [Cursor.endOf_of_lt hlt, hnone hlt]
    exact .error ReadFailure.not_defended
  · obtain ⟨a, d, rfl, hdata, hrest⟩ := hsome hle
    rcases Cursor.endOf_of_le (ε := ε) hle with hend | ⟨hsize, hend⟩
    · rw [hend]
      show Matches c.data (rest (c.pos + n)) _
      rw [hrest]
      exact .ok a hdata
    · rw [hend]
      refine .beyond hsize (fun a' d' hread => ?_) nofun
      cases hread
      exact hdata

theorem Cursor.buffer_eq {d : Cursor} (hdata : d.data = c.data) (hpos : d.pos = c.pos + n) :
    d.buffer = ⟨c.data, c.pos + n⟩ := by
  rw [buffer, hdata, hpos]

/-- The octet at the position is the one under the cursor. -/
theorem Cursor.getElem?_pos (c : Cursor) : c.data[c.pos]? = c.peek? := by
  rw [peek?, ← c.drop_pos, List.head?_drop]

/-- An octet is a number of one octet. -/
theorem Cursor.next?_eq_unsigned? (c : Cursor) :
    c.next? = (c.unsigned? 1).map fun r => (UInt8.ofNat r.1, r.2) := by
  rw [unsigned?, take?, next?, peek?]
  cases hrest : c.rest with
  | nil =>
    have hshort : c.remaining < 1 := by
      rw [← c.length_rest, hrest]
      exact Nat.one_pos
    rw [(c.advance?_eq_none_iff 1).mpr hshort]
    rfl
  | cons b rest =>
    cases c.advance? 1 with
    | none => rfl
    | some d =>
      have hvalue : UInt8.ofNat (Bytes.bigEndian [b]) = b := by
        rw [Bytes.bigEndian, List.foldl_cons, List.foldl_nil, Nat.zero_mul, Nat.zero_add,
          UInt8.ofNat_toNat]
      show some (b, d) = some (UInt8.ofNat (Bytes.bigEndian [b]), d)
      rw [hvalue]

namespace BufferReader

/-- Octets are taken where they can be taken behind a cursor. -/
theorem matches_octets (c : Cursor) (n : Nat) :
    Matches c.data (octets n c.buffer) (orOutOfBounds (ε := ε) (c.take? n)) := by
  refine matches_of_endOf (c.take?_eq_none_iff n).mpr fun hle => ?_
  obtain ⟨d, hd, hdata, hpos⟩ := Cursor.exists_advance? hle
  have hslice : c.buffer.data.slice? c.buffer.position (c.pos + n) = some (c.rest.take n) :=
    c.slice?_eq hle
  refine ⟨c.rest.take n, d, by rw [Cursor.take?, hd]; rfl, hdata, ?_⟩
  rw [hslice, Cursor.buffer_eq hdata hpos]
  rfl

theorem matches_advance (c : Cursor) (n : Nat) :
    Matches c.data (advance n c.buffer)
      (orOutOfBounds (ε := ε) ((c.advance? n).map fun d => ((), d))) := by
  refine matches_of_endOf (fun hlt => by rw [(c.advance?_eq_none_iff n).mpr hlt]; rfl)
    fun hle => ?_
  obtain ⟨d, hd, hdata, hpos⟩ := Cursor.exists_advance? hle
  refine ⟨(), d, by rw [hd]; rfl, hdata, ?_⟩
  rw [Cursor.buffer_eq hdata hpos]
  rfl

/-- The octet at the position is looked at by its index, and without a sum. -/
theorem peek_eq (c : Cursor) :
    (peek : BufferReader ε UInt8) c.buffer = match c.peek? with
      | none => .error (.reported ReadFailure.outOfBounds)
      | some a => .ok (a, c.buffer) := by
  have hget : c.buffer.data[c.buffer.position]? = c.peek? := c.getElem?_pos
  have hsize : c.buffer.data.length ≤ c.buffer.position ↔ c.peek? = none := by
    rw [← hget, List.getElem?_eq_none_iff]
  unfold peek
  rw [hget]
  cases hpeek : c.peek? with
  | none => exact if_pos (hsize.mpr hpeek)
  | some a =>
    rw [if_neg (by rw [hsize, hpeek]; nofun)]
    rfl

/-- A number is read where there are octets for it; their slice is never of another length. -/
theorem matches_unsigned (c : Cursor) (width : Nat) :
    Matches c.data (unsigned width c.buffer) (orOutOfBounds (ε := ε) (c.unsigned? width)) := by
  refine matches_of_endOf (fun hlt => ?_) fun hle => ?_
  · rw [Cursor.unsigned?, (c.take?_eq_none_iff width).mpr hlt]
    rfl
  · obtain ⟨d, hd, hdata, hpos⟩ := Cursor.exists_advance? hle
    have hslice : c.buffer.data.slice? c.buffer.position (c.pos + width) =
        some (c.rest.take width) := c.slice?_eq hle
    have hlength : (c.rest.take width).length = width := by
      rw [List.length_take, c.length_rest]
      exact Nat.min_eq_left hle
    refine ⟨Bytes.bigEndian (c.rest.take width), d, ?_, hdata, ?_⟩
    · rw [Cursor.unsigned?, Cursor.take?, hd]
      rfl
    · rw [hslice, Cursor.buffer_eq hdata hpos]
      exact if_pos hlength

theorem matches_u8 (c : Cursor) :
    Matches c.data (u8 c.buffer) (orOutOfBounds (ε := ε) c.next?) := by
  have h := (matches_unsigned (ε := ε) c 1).map (f := UInt8.ofNat)
  rw [c.next?_eq_unsigned?]
  cases hread : c.unsigned? 1 <;> rw [hread] at h <;> exact h

end BufferReader

end Reads

/-! ## 5. Readers of class files -/

/-- The octets of a class name are always text, and the dimensions of an array always fit. -/
instance : ReadFailure Descriptor.Fault where
  outOfBounds := .missing
  Defended
    | .invalidName _ | .dimensions _ => True
    | _ => False
  not_defended := id

/-- Octets that are taken for ASCII are always text; what is wrong with the descriptor of a method
    is what can be wrong with a descriptor. -/
instance : ReadFailure Error where
  outOfBounds := .outOfBounds
  Defended
    | .malformed (.undecodable .notAscii) => True
    | .malformed (.methodDescriptor _ _ _ fault) => ReadFailure.Defended fault
    | _ => False
  not_defended := id

namespace ByteReader

variable {α β : Type}

/-- What a reader comes to; where it fails, it does not matter where it stopped. -/
def outcome (r : ByteReader α) (c : Cursor) : Except Error (α × Cursor) :=
  match r c with
  | .ok a d => .ok (a, d)
  | .error e _ => .error e

theorem outcome_bind (r : ByteReader α) (k : α → ByteReader β) (c : Cursor) :
    (r >>= k).outcome c = r.outcome c >>= fun read => (k read.1).outcome read.2 := by
  have hbind : (r >>= k) c = EStateM.bind r k c := rfl
  rw [outcome, outcome, hbind, EStateM.bind]
  cases r c <;> rfl

theorem outcome_ofCursor (read? : Cursor → Option (α × Cursor)) (c : Cursor) :
    (ofCursor read?).outcome c = orOutOfBounds (read? c) := by
  rw [outcome, ofCursor]
  cases read? c <;> rfl

theorem answer_eq_map_outcome (r : ByteReader α) (c : Cursor) :
    r.answer c = (r.outcome c).map Prod.fst := by
  rw [answer, outcome]
  cases r c <;> rfl

end ByteReader

namespace BufferReader

/-- Wherever a reader can be in any data, the run comes to what it comes to. -/
def Follows {α : Type} (p : BufferReader Error α) (r : ByteReader α) : Prop :=
  ∀ c : Cursor, Matches c.data (p c.buffer) (r.outcome c)

section Composed

variable {α β : Type} {p : BufferReader Error α} {r : ByteReader α}

theorem follows_pure (a : α) : Follows (pure a) (pure a) := fun _ => .ok a rfl

theorem follows_report {e : Error} (h : ¬ ReadFailure.Defended e) :
    Follows (report e : BufferReader Error α) (throw e) := fun _ => .error h

/-- **One reader after the other.** The second ones are compared for what can have been read. -/
theorem Follows.bind {k : α → BufferReader Error β} {l : α → ByteReader β} (h : Follows p r)
    (hk : ∀ a, (∃ c d, r.outcome c = .ok (a, d)) → Follows (k a) (l a)) :
    Follows (p >>= k) (r >>= l) := by
  intro c
  rw [ByteReader.outcome_bind]
  exact (h c).bind fun a d hread hdata => hdata ▸ hk a ⟨c, d, hread⟩ d

theorem Follows.map (h : Follows p r) (f : α → β) :
    Follows (p >>= fun a => pure (f a)) (r >>= fun a => pure (f a)) :=
  h.bind fun a _ => follows_pure (f a)

theorem follows_ofCursor {read? : Cursor → Option (α × Cursor)}
    (h : ∀ c : Cursor, Matches c.data (p c.buffer) (orOutOfBounds (read? c))) :
    Follows p (ByteReader.ofCursor read?) := by
  intro c
  rw [ByteReader.outcome_ofCursor]
  exact h c

end Composed

theorem follows_octets (n : Nat) : Follows (octets n) (ByteReader.octets n) :=
  follows_ofCursor fun c => matches_octets c n

theorem follows_advance (n : Nat) : Follows (advance n) (ByteReader.skip n) :=
  follows_ofCursor fun c => matches_advance c n

theorem follows_unsigned (width : Nat) : Follows (unsigned width) (ByteReader.unsigned width) :=
  follows_ofCursor fun c => matches_unsigned c width

theorem follows_u8 : Follows u8 ByteReader.u8 := follows_ofCursor matches_u8

theorem follows_u16 : Follows u16 ByteReader.u16 := (follows_unsigned 2).map _

theorem follows_u32 : Follows u32 ByteReader.u32 := (follows_unsigned 4).map _

end BufferReader

/-! ## 6. Texts -/

namespace BufferReader

/-- The octet at an index that goes on with a unit. -/
def continuation (bs : Bytes) (index : Nat) : Except (Halt ModifiedUtf8.Fault) UInt8 :=
  match bs[index]? with
  | none => report .truncated
  | some b =>
    if ModifiedUtf8.isContinuation b then pure b else report (.continuationByte b index)

/-- The unit that starts at an index, and how many octets go on with it. -/
def unitAt (bs : Bytes) (index : Nat) : Except (Halt ModifiedUtf8.Fault) (UInt16 × Nat) := do
  let a ← must bs[index]?
  if 0x01 ≤ a && a ≤ 0x7F then
    return (a.toUInt16, 0)
  else if 0xC0 ≤ a && a ≤ 0xDF then
    let b ← continuation bs (← must (Address.add? index 1))
    return (ModifiedUtf8.unit₂ a b, 1)
  else if 0xE0 ≤ a && a ≤ 0xEF then
    let b ← continuation bs (← must (Address.add? index 1))
    let c ← continuation bs (← must (Address.add? index 2))
    return (ModifiedUtf8.unit₃ a b c, 2)
  else report (.leadByte a index)

/-- The units from an index on, after those in `done` in reverse. -/
def unitsAt (bs : Bytes) (index : Nat) (done : List UInt16) :
    Except (Halt ModifiedUtf8.Fault) (List UInt16) :=
  if index < bs.length then
    match unitAt bs index with
    | .error halt => .error halt
    | .ok (u, more) =>
      match _h : Address.add? index (more + 1) with
      | none => .error .panic
      | some next => unitsAt bs next (u :: done)
  else .ok done.reverse
termination_by bs.length - index
decreasing_by
  have := Address.eq_add_of_add? _h
  omega

/-- A text in modified UTF-8 of `n` octets. -/
def modifiedUtf8 (n : Nat) : BufferReader Error String := do
  let bs ← octets n
  if ModifiedUtf8.isPlain bs then
    match Utf8.decode? bs with
    | some s => return s
    | none => defend (.malformed (.undecodable .notAscii))
  else
    match unitsAt bs 0 [] with
    | .error halt => throw (halt.map fun fault => .malformed (.undecodable fault))
    | .ok us =>
      match Utf16.decode? us with
      | some cs => return String.ofList cs
      | none => report (.malformed (.undecodable .surrogates))

section Units

open ModifiedUtf8

variable {bs : Bytes} {index : Nat}

theorem drop_of_getElem?_none (h : bs[index]? = none) : bs.drop index = [] := by
  rw [List.drop_eq_nil_iff, ← List.getElem?_eq_none_iff, h]

theorem drop_of_getElem?_some {a : UInt8} (h : bs[index]? = some a) :
    bs.drop index = a :: bs.drop (index + 1) := by
  rw [List.drop_eq_getElem?_toList_append, h]
  rfl

/-- What stands at an index goes on with a unit, or the unit is broken there. -/
theorem continuation_cases (bs : Bytes) (index : Nat) :
    (bs.drop index = [] ∧ continuation bs index = .error (.reported .truncated)) ∨
    ∃ b, bs.drop index = b :: bs.drop (index + 1) ∧
      continuation bs index = if isContinuation b then .ok b
        else .error (.reported (.continuationByte b index)) := by
  unfold continuation
  cases hget : bs[index]? with
  | none => exact Or.inl ⟨drop_of_getElem?_none hget, rfl⟩
  | some b => exact Or.inr ⟨b, drop_of_getElem?_some hget, rfl⟩

/-- **A unit is found at an index exactly as it is in the octets from there on**, and none of the
    sums for it exceeds an address. -/
theorem unitAt_cases (hindex : index < bs.length) (hbs : bs.length < 0x10000) :
    (∃ u more, unitAt bs index = .ok (u, more) ∧ more ≤ 2 ∧
      ∀ done, unitsFrom index done (bs.drop index) =
        unitsFrom (index + (more + 1)) (u :: done) (bs.drop (index + (more + 1)))) ∨
    ∃ fault, unitAt bs index = .error (.reported fault) ∧ fault ≠ .notAscii ∧
      ∀ done, unitsFrom index done (bs.drop index) = .error fault := by
  have hsize : UInt64.size = 18446744073709551616 := rfl
  have hget : bs[index]? = some bs[index] := List.getElem?_eq_getElem hindex
  have hone : Address.add? index 1 = some (index + 1) := Address.add?_of_lt (by omega)
  have htwo : Address.add? index 2 = some (index + 2) := Address.add?_of_lt (by omega)
  generalize bs[index] = a at hget
  unfold unitAt
  rw [hget, hone, htwo, drop_of_getElem?_some hget]
  simp only [must, pure_bind, unitsFrom.eq_def index _ (a :: _)]
  by_cases h₁ : (0x01 ≤ a && a ≤ 0x7F) = true
  · simp only [if_pos h₁]
    exact Or.inl ⟨_, 0, rfl, by omega, fun _ => rfl⟩
  by_cases h₂ : (0xC0 ≤ a && a ≤ 0xDF) = true
  · simp only [if_neg h₁, if_pos h₂]
    rcases continuation_cases bs (index + 1) with ⟨hdrop, hnext⟩ | ⟨b, hdrop, hnext⟩
    · rw [hdrop, hnext]
      exact Or.inr ⟨_, rfl, nofun, fun _ => rfl⟩
    · rw [hdrop, hnext]
      by_cases hb : isContinuation b = true
      · simp only [if_pos hb]
        exact Or.inl ⟨_, 1, rfl, by omega, fun _ => rfl⟩
      · simp only [if_neg hb]
        exact Or.inr ⟨_, rfl, nofun, fun _ => rfl⟩
  by_cases h₃ : (0xE0 ≤ a && a ≤ 0xEF) = true
  · simp only [if_neg h₁, if_neg h₂, if_pos h₃]
    rcases continuation_cases bs (index + 1) with ⟨hdrop, hnext⟩ | ⟨b, hdrop, hnext⟩
    · rw [hdrop, hnext]
      exact Or.inr ⟨_, rfl, nofun, fun _ => rfl⟩
    · rw [hdrop, hnext]
      by_cases hb : isContinuation b = true
      · simp only [if_pos hb]
        rcases continuation_cases bs (index + 2) with ⟨hdrop', hnext'⟩ | ⟨c, hdrop', hnext'⟩
        · rw [hdrop', hnext']
          exact Or.inr ⟨_, rfl, nofun, fun _ => rfl⟩
        · rw [hdrop', hnext']
          by_cases hc : isContinuation c = true
          · simp only [if_pos hc]
            exact Or.inl ⟨_, 2, rfl, by omega, fun _ => rfl⟩
          · simp only [if_neg hc]
            exact Or.inr ⟨_, rfl, nofun, fun _ => rfl⟩
      · simp only [if_neg hb]
        exact Or.inr ⟨_, rfl, nofun, fun _ => rfl⟩
  · simp only [if_neg h₁, if_neg h₂, if_neg h₃]
    exact Or.inr ⟨_, rfl, nofun, fun _ => rfl⟩

/-- The units from an index on are those of the octets from there on. -/
theorem unitsAt_eq (hbs : bs.length < 0x10000) (index : Nat) (done : List UInt16) :
    (∃ us, unitsAt bs index done = .ok us ∧ unitsFrom index done (bs.drop index) = .ok us) ∨
    ∃ fault, unitsAt bs index done = .error (.reported fault) ∧ fault ≠ .notAscii ∧
      unitsFrom index done (bs.drop index) = .error fault := by
  fun_induction unitsAt bs index done with
  | case1 index done hindex halt hunit =>
    rcases unitAt_cases hindex hbs with ⟨u, more, hok, -⟩ | ⟨fault, herror, hfault, hfrom⟩
    · rw [hunit] at hok
      cases hok
    · rw [hunit] at herror
      cases herror
      exact Or.inr ⟨fault, rfl, hfault, hfrom done⟩
  | case2 index done hindex u more hunit hnone =>
    rcases unitAt_cases hindex hbs with ⟨u', more', hok, hmore, -⟩ | ⟨fault, herror, -⟩
    · rw [hunit] at hok
      cases hok
      have hsize : UInt64.size = 18446744073709551616 := rfl
      rw [Address.add?_of_lt (by omega)] at hnone
      cases hnone
    · rw [hunit] at herror
      cases herror
  | case3 index done hindex u more hunit next hnext ih =>
    rcases unitAt_cases hindex hbs with ⟨u', more', hok, -, hfrom⟩ | ⟨fault, herror, -⟩
    · rw [hunit] at hok
      cases hok
      obtain rfl := Address.eq_add_of_add? hnext
      rw [hfrom]
      exact ih
    · rw [hunit] at herror
      cases herror
  | case4 index done hindex =>
    refine Or.inl ⟨_, rfl, ?_⟩
    rw [List.drop_eq_nil_of_le (Nat.not_lt.mp hindex), unitsFrom]

end Units

/-- As many octets are answered as were asked for. -/
theorem length_of_octets {n : Nat} {bs : Bytes}
    (h : ∃ c d, (ByteReader.octets n).outcome c = .ok (bs, d)) : bs.length = n := by
  obtain ⟨c, d, h⟩ := h
  rw [ByteReader.octets, ByteReader.outcome_ofCursor] at h
  cases htake : c.take? n with
  | none =>
    rw [htake] at h
    cases h
  | some read =>
    rw [htake] at h
    cases h
    exact ((c.take?_eq_some_iff d n bs).mp htake).1

/-- A text is read as behind a cursor. The shorter way for ASCII finds a text every time. -/
theorem follows_modifiedUtf8 (n : UInt16) :
    Follows (modifiedUtf8 n.toNat) (ByteReader.modifiedUtf8 n.toNat) := by
  refine (follows_octets n.toNat).bind fun bs hbs => ?_
  have hlength : bs.length < 0x10000 := length_of_octets hbs ▸ n.toNat_lt
  rw [ModifiedUtf8.decode]
  by_cases hplain : ModifiedUtf8.isPlain bs = true
  · have hchars : ∀ b ∈ bs, b ≠ 0 ∧ b < 0x80 := by simpa [ModifiedUtf8.isPlain] using hplain
    obtain ⟨s, hs, -⟩ := ModifiedUtf8.exists_decodePlain hchars
    simp only [if_pos hplain, hs]
    rw [ModifiedUtf8.decodePlain] at hs
    cases hdecode : Utf8.decode? bs with
    | none =>
      rw [hdecode] at hs
      cases hs
    | some t =>
      rw [hdecode] at hs
      cases hs
      exact follows_pure s
  · simp only [if_neg hplain]
    have hfrom := unitsAt_eq hlength 0 []
    rw [List.drop_zero] at hfrom
    rw [ModifiedUtf8.decodeUnits, ModifiedUtf8.units]
    rcases hfrom with ⟨us, hat, hfrom⟩ | ⟨fault, hat, hfault, hfrom⟩
    · rw [hat, hfrom]
      dsimp only
      cases Utf16.decode? us with
      | none => exact follows_report id
      | some cs => exact follows_pure _
    · rw [hat, hfrom]
      refine follows_report ?_
      cases fault with
      | notAscii => exact absurd rfl hfault
      | _ => exact id

end BufferReader

end SdkConformance
