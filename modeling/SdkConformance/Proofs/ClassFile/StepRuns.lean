import Mathlib.Data.Nat.Digits.Defs
import SdkConformance.ClassFile.ReadStep
import SdkConformance.Proofs.ClassFile.TextReading

/-!
# Runs of reading steps

Steps of all kinds may be performed at a cursor in any order, with any numbers. Whatever the steps,
the cursor stays in its data: a step that would leave it reports so and moves nothing, and every
other step moves by what it is asked for and answers what stands there.

* `Cursor.wordEnd?`: where a read ends, in words of 64 bits, with a test for overflow;
* `ReadStep.Fits`, `ReadStep.target`, `ReadStep.Answers`: what a step needs, where it leads and what
  it answers, from the data and the position alone;
* `ReadStep.Lawful`: all of this for one step; `lawful_run` proves it;
* `ReadStep.Traced`, `traced_trace_ofBytes`: the same for every step of a run.
-/

namespace SdkConformance

/-! ## 1. Ends in words of 64 bits -/

/-- The end of so many octets from a position, in words of 64 bits. There is none if the sum exceeds
    a word or the size. -/
def Cursor.wordEnd? (pos length size : UInt64) : Option UInt64 :=
  if pos + length < pos then none
  else if size < pos + length then none
  else some (pos + length)

/-- The sum of two words is below the first exactly if it exceeds a word. -/
theorem Cursor.add_lt_left_iff (pos length : UInt64) :
    pos + length < pos ↔ UInt64.size ≤ pos.toNat + length.toNat := by
  have hpos : pos.toNat < UInt64.size := pos.toNat_lt
  have hlength : length.toNat < UInt64.size := length.toNat_lt
  rw [UInt64.lt_iff_toNat_lt, UInt64.toNat_add]
  simp only [UInt64.size] at *
  omega

theorem Cursor.map_toNat_wordEnd? (pos length size : UInt64) :
    (wordEnd? pos length size).map UInt64.toNat =
      if pos.toNat + length.toNat ≤ size.toNat then some (pos.toNat + length.toNat) else none := by
  have hsize : size.toNat < UInt64.size := size.toNat_lt
  unfold wordEnd?
  by_cases hwrap : pos + length < pos
  · rw [if_pos hwrap, if_neg]
    · rfl
    · rw [Cursor.add_lt_left_iff] at hwrap
      omega
  · rw [if_neg hwrap]
    rw [Cursor.add_lt_left_iff, Nat.not_le] at hwrap
    have hsum : (pos + length).toNat = pos.toNat + length.toNat := by
      rw [UInt64.toNat_add]
      exact Nat.mod_eq_of_lt hwrap
    by_cases hout : size < pos + length
    · rw [if_pos hout, if_neg]
      · rfl
      · rw [UInt64.lt_iff_toNat_lt, hsum] at hout
        omega
    · rw [if_neg hout, if_pos, Option.map_some, hsum]
      rw [UInt64.lt_iff_toNat_lt, hsum] at hout
      omega

/-! ## 2. Numbers -/

/-- The number that has the octets as its digits to the base 256, the last one least significant. -/
def Bytes.digitValue (bs : Bytes) : Nat := Nat.ofDigits 256 (bs.reverse.map UInt8.toNat)

theorem Bytes.bigEndian_eq_digitValue (bs : Bytes) : Bytes.bigEndian bs = bs.digitValue := by
  induction bs using List.reverseRecOn with
  | nil => rfl
  | append_singleton init b ih =>
    rw [Bytes.bigEndian_concat, ih, Bytes.digitValue, Bytes.digitValue, List.reverse_append,
      List.reverse_singleton, List.singleton_append, List.map_cons, Nat.ofDigits_cons, Nat.add_comm,
      Nat.mul_comm]

theorem Bytes.span_eq_two_pow (width : Nat) : Bytes.span width = 2 ^ (8 * width) := by
  rw [Nat.pow_mul]
  rfl

/-- The signed reading of a value is that of its bits. -/
theorem twosComplement_eq_toInt {width n : Nat} (h : n < Bytes.span width) :
    twosComplement width n = (BitVec.ofNat (8 * width) n).toInt := by
  rw [Bytes.span_eq_two_pow] at h
  rw [twosComplement, Bytes.span_eq_two_pow, BitVec.toInt_eq_toNat_cond, BitVec.toNat_ofNat,
    Nat.mod_eq_of_lt h]

namespace ReadStep

/-! ## 3. What a step does -/

section Laws

variable (s : ReadStep) (c : Cursor)

/-- How many octets a step passes, if it is one that passes octets. -/
def length? : ReadStep → Option Nat
  | .skip n | .octets n | .text n | .unsigned n | .signed n => some n
  | .seek _ | .peek => none

/-- The data has what the step needs: the position that it moves to, which may be the end, or the
    octets that it passes or looks at. -/
def Fits : Prop :=
  match s with
  | .seek n => n ≤ c.size
  | .skip n | .octets n | .text n | .unsigned n | .signed n => n ≤ c.remaining
  | .peek => 0 < c.remaining

/-- The position that the step leads to. -/
def target : Nat :=
  match s with
  | .seek n => n
  | .skip n | .octets n | .text n | .unsigned n | .signed n => c.pos + n
  | .peek => c.pos

/-- What a step that fits answers. A number is that of the octets which a step for as many octets
    answers at the same place. -/
def Answers (a : Except Error ReadAnswer) : Prop :=
  match s with
  | .seek _ | .skip _ => a = .ok .moved
  | .octets n => a = .ok (.octets (c.ahead n))
  | .text _ =>
    (∃ content, a = .ok (.text content)) ∨ ∃ fault, a = .error (.malformed (.undecodable fault))
  | .unsigned width => ∃ bs, ((ReadStep.octets width).run c).1 = .ok (.octets bs) ∧
      a = .ok (.number bs.digitValue)
  | .signed width => ∃ bs, ((ReadStep.octets width).run c).1 = .ok (.octets bs) ∧
      a = .ok (.number (BitVec.ofNat (8 * width) bs.digitValue).toInt)
  | .peek => ∃ b, c.ahead 1 = [b] ∧ a = .ok (.octet b)

/-- What a step does at a cursor: its answer and the cursor after it. -/
structure Lawful (r : Except Error ReadAnswer × Cursor) : Prop where
  data_eq : r.2.data = c.data
  pos_le : r.2.pos ≤ c.size
  pos_add_remaining : r.2.pos + r.2.remaining = c.size
  hasMore_iff : r.2.hasMore = true ↔ 0 < r.2.remaining
  /-- It runs out of data exactly if it does not fit. -/
  outOfBounds_iff : r.1 = .error .outOfBounds ↔ ¬ s.Fits c
  pos_of_outOfBounds : r.1 = .error .outOfBounds → r.2.pos = c.pos
  pos_of_fits : s.Fits c → r.2.pos = s.target c
  answers : s.Fits c → s.Answers c r.1
  /-- In words of 64 bits, the end of what it passes is there exactly if it does not run out of
      data, and then it is the new position. -/
  words : ∀ n, s.length? = some n → n < UInt64.size → c.size < UInt64.size →
    (r.1 = .error .outOfBounds ↔
      Cursor.wordEnd? (.ofNat c.pos) (.ofNat n) (.ofNat c.size) = none) ∧
    ∀ last, Cursor.wordEnd? (.ofNat c.pos) (.ofNat n) (.ofNat c.size) = some last →
      r.2.pos = last.toNat

end Laws

/-! ## 4. Steps that pass octets -/

/-- What a step that passes octets makes of them. -/
def ofOctets (s : ReadStep) (bs : Bytes) : Except Error ReadAnswer :=
  match s with
  | .octets _ => .ok (.octets bs)
  | .text _ =>
    match ModifiedUtf8.decode bs with
    | .ok content => .ok (.text content)
    | .error fault => .error (.malformed (.undecodable fault))
  | .unsigned _ => .ok (.number (Bytes.bigEndian bs))
  | .signed width => .ok (.number (twosComplement width (Bytes.bigEndian bs)))
  | .seek _ | .skip _ | .peek => .ok .moved

variable {s : ReadStep} {c : Cursor} {n : Nat}

/-- Every one of them reads its octets first, and then goes by these alone. -/
theorem reader_eq (hs : s.length? = some n) (c : Cursor) : s.reader c =
    match ByteReader.octets n c with
    | .ok bs d =>
      match s.ofOctets bs with
      | .ok a => .ok a d
      | .error e => .error e d
    | .error e d => .error e d := by
  cases s with
  | seek _ => cases hs
  | peek => cases hs
  | skip _ =>
    cases hs
    show EStateM.bind (ByteReader.skip n) _ c = _
    rw [ByteReader.skip_eq_octets]
    show EStateM.bind (EStateM.bind (ByteReader.octets n) _) _ c = _
    rw [EStateM.bind, EStateM.bind]
    cases ByteReader.octets n c <;> rfl
  | octets _ =>
    cases hs
    show EStateM.bind (ByteReader.octets n) _ c = _
    rw [EStateM.bind]
    cases ByteReader.octets n c <;> rfl
  | text _ =>
    cases hs
    show EStateM.bind (EStateM.bind (ByteReader.octets n) _) _ c = _
    rw [EStateM.bind, EStateM.bind]
    cases ByteReader.octets n c with
    | error e d => rfl
    | ok bs d =>
      simp only [ofOctets]
      cases ModifiedUtf8.decode bs <;> rfl
  | unsigned _ =>
    cases hs
    show EStateM.bind (ByteReader.unsigned n) _ c = _
    rw [ByteReader.unsigned_eq_octets]
    show EStateM.bind (EStateM.bind (ByteReader.octets n) _) _ c = _
    rw [EStateM.bind, EStateM.bind]
    cases ByteReader.octets n c <;> rfl
  | signed _ =>
    cases hs
    show EStateM.bind (ByteReader.signed n) _ c = _
    rw [EStateM.bind, ByteReader.signed, ByteReader.octets, ByteReader.ofCursor,
      ByteReader.ofCursor, Cursor.signed?, Cursor.unsigned?]
    cases c.take? n <;> rfl

theorem run_of_lt (hs : s.length? = some n) (h : c.remaining < n) :
    s.run c = (.error .outOfBounds, c) := by
  rw [run, reader_eq hs, ByteReader.octets_of_lt h]

theorem run_of_le (hs : s.length? = some n) (h : n ≤ c.remaining) :
    ∃ d : Cursor, d.data = c.data ∧ d.pos = c.pos + n ∧
      s.run c = (s.ofOctets (c.ahead n), d) := by
  obtain ⟨d, hd, hdata, hpos⟩ := ByteReader.octets_of_le h
  refine ⟨d, hdata, hpos, ?_⟩
  rw [run, reader_eq hs, hd, Cursor.ahead, c.drop_pos]
  simp only
  cases s.ofOctets (c.rest.take n) <;> rfl

theorem length_ahead (h : n ≤ c.remaining) : (c.ahead n).length = n := by
  rw [Cursor.ahead, c.drop_pos, List.length_take, c.length_rest]
  exact Nat.min_eq_left h

/-- A step for octets answers those behind the cursor. -/
theorem run_octets_of_le (h : n ≤ c.remaining) :
    ((ReadStep.octets n).run c).1 = .ok (.octets (c.ahead n)) := by
  obtain ⟨d, -, -, hrun⟩ := run_of_le (s := .octets n) rfl h
  rw [hrun]
  rfl

theorem fits_iff (hs : s.length? = some n) : s.Fits c ↔ n ≤ c.remaining := by
  cases s <;> cases hs <;> exact Iff.rfl

theorem target_eq (hs : s.length? = some n) : s.target c = c.pos + n := by
  cases s <;> cases hs <;> rfl

theorem answers_ofOctets (hs : s.length? = some n) (h : n ≤ c.remaining) :
    s.Answers c (s.ofOctets (c.ahead n)) := by
  cases s with
  | seek _ => cases hs
  | peek => cases hs
  | skip _ => rfl
  | octets _ =>
    cases hs
    rfl
  | text _ =>
    cases hs
    simp only [Answers, ofOctets]
    cases ModifiedUtf8.decode (c.ahead n) with
    | ok content => exact Or.inl ⟨content, rfl⟩
    | error fault => exact Or.inr ⟨fault, rfl⟩
  | unsigned _ =>
    cases hs
    refine ⟨c.ahead n, run_octets_of_le h, ?_⟩
    rw [← Bytes.bigEndian_eq_digitValue]
    rfl
  | signed _ =>
    cases hs
    have hlt : Bytes.bigEndian (c.ahead n) < Bytes.span n := by
      have := Bytes.bigEndian_lt_span (c.ahead n)
      rwa [length_ahead h] at this
    refine ⟨c.ahead n, run_octets_of_le h, ?_⟩
    rw [← Bytes.bigEndian_eq_digitValue, ← twosComplement_eq_toInt hlt]
    rfl

/-! ## 5. Every step -/

variable {a : Except Error ReadAnswer} {d : Cursor}

/-- The answer of a step that fits is not that the data is too short. -/
theorem ne_outOfBounds_of_answers (h : s.Answers c a) : a ≠ .error .outOfBounds := by
  intro hout
  subst hout
  cases s with
  | seek _ => cases h
  | skip _ => cases h
  | octets _ => cases h
  | text _ =>
    rcases h with ⟨_, h⟩ | ⟨_, h⟩
    · cases h
    · cases h
  | unsigned _ =>
    obtain ⟨_, _, h⟩ := h
    cases h
  | signed _ =>
    obtain ⟨_, _, h⟩ := h
    cases h
  | peek =>
    obtain ⟨_, _, h⟩ := h
    cases h

/-- The end in words, at a cursor of data that words can count. -/
theorem map_toNat_wordEnd?_of_lt (hn : n < UInt64.size) (hsize : c.size < UInt64.size) :
    (Cursor.wordEnd? (.ofNat c.pos) (.ofNat n) (.ofNat c.size)).map UInt64.toNat =
      if n ≤ c.remaining then some (c.pos + n) else none := by
  have hsum := c.pos_add_remaining
  have hpos : c.pos < UInt64.size := by omega
  rw [Cursor.map_toNat_wordEnd?, UInt64.toNat_ofNat_of_lt' hpos, UInt64.toNat_ofNat_of_lt' hn,
    UInt64.toNat_ofNat_of_lt' hsize]
  refine if_congr ?_ rfl rfl
  omega

/-- A step that fits and answers accordingly, at the cursor that it leads to. -/
theorem lawful_of_fits (hfits : s.Fits c) (hdata : d.data = c.data) (hpos : d.pos = s.target c)
    (ha : s.Answers c a) : s.Lawful c (a, d) := by
  have hsize : d.size = c.size := congrArg List.length hdata
  have hok := ne_outOfBounds_of_answers ha
  exact {
    data_eq := hdata
    pos_le := hsize ▸ d.pos_le
    pos_add_remaining := hsize ▸ d.pos_add_remaining
    hasMore_iff := d.hasMore_iff
    outOfBounds_iff := iff_of_false hok (not_not_intro hfits)
    pos_of_outOfBounds := fun hout => absurd hout hok
    pos_of_fits := fun _ => hpos
    answers := fun _ => ha
    words := by
      intro n hs hn hwords
      have hend := map_toNat_wordEnd?_of_lt hn hwords
      rw [if_pos ((fits_iff hs).mp hfits)] at hend
      obtain ⟨last, hlast, hvalue⟩ := Option.map_eq_some_iff.mp hend
      rw [hlast]
      refine ⟨iff_of_false hok (Option.some_ne_none last), fun last' h' => ?_⟩
      obtain rfl : last = last' := Option.some.inj h'
      rw [hvalue, ← target_eq hs]
      exact hpos }

/-- A step that does not fit, and leaves the cursor where it is. -/
theorem lawful_of_not_fits (hfits : ¬ s.Fits c) : s.Lawful c (.error .outOfBounds, c) where
  data_eq := rfl
  pos_le := c.pos_le
  pos_add_remaining := c.pos_add_remaining
  hasMore_iff := c.hasMore_iff
  outOfBounds_iff := iff_of_true rfl hfits
  pos_of_outOfBounds _ := rfl
  pos_of_fits hf := absurd hf hfits
  answers hf := absurd hf hfits
  words := by
    intro n hs hn hwords
    have hend := map_toNat_wordEnd?_of_lt hn hwords
    rw [if_neg fun hle => hfits ((fits_iff hs).mpr hle), Option.map_eq_none_iff] at hend
    rw [hend]
    exact ⟨iff_of_true rfl rfl, fun last h' => nomatch h'⟩

theorem run_of_reader_ok {x : ReadAnswer} (h : s.reader c = .ok x d) : s.run c = (.ok x, d) := by
  rw [run, h]

theorem run_of_reader_error {e : Error} (h : s.reader c = .error e d) :
    s.run c = (.error e, d) := by
  rw [run, h]

/-- A step that passes octets, be there enough of them or not. -/
theorem lawful_run_of_length? (hs : s.length? = some n) (c : Cursor) : s.Lawful c (s.run c) := by
  by_cases h : n ≤ c.remaining
  · obtain ⟨d, hdata, hpos, hrun⟩ := run_of_le hs h
    rw [hrun]
    exact lawful_of_fits ((fits_iff hs).mpr h) hdata (hpos.trans (target_eq hs).symm)
      (answers_ofOctets hs h)
  · rw [run_of_lt hs (Nat.lt_of_not_le h)]
    exact lawful_of_not_fits fun hf => h ((fits_iff hs).mp hf)

theorem lawful_run_seek (n : Nat) (c : Cursor) : (ReadStep.seek n).Lawful c ((seek n).run c) := by
  by_cases h : n ≤ c.size
  · obtain ⟨d, hd⟩ : ∃ d, c.seek? n = some d := ⟨_, dif_pos h⟩
    obtain ⟨-, hdata, hpos⟩ := (c.seek?_eq_some_iff d n).mp hd
    have hrun : (seek n).run c = (.ok .moved, d) := by
      refine run_of_reader_ok ?_
      show EStateM.bind (ByteReader.seek n) _ c = _
      rw [EStateM.bind, ByteReader.seek, ByteReader.ofCursor, hd]
      rfl
    rw [hrun]
    exact lawful_of_fits h hdata hpos rfl
  · have hnone : c.seek? n = none := dif_neg h
    have hrun : (seek n).run c = (.error .outOfBounds, c) := by
      refine run_of_reader_error ?_
      show EStateM.bind (ByteReader.seek n) _ c = _
      rw [EStateM.bind, ByteReader.seek, ByteReader.ofCursor, hnone]
      rfl
    rw [hrun]
    exact lawful_of_not_fits h

theorem lawful_run_peek (c : Cursor) : ReadStep.peek.Lawful c (peek.run c) := by
  have hlength := c.length_rest
  cases hrest : c.rest with
  | nil =>
    have hrun : peek.run c = (.error .outOfBounds, c) := by
      refine run_of_reader_error ?_
      show EStateM.bind ByteReader.peek _ c = _
      rw [EStateM.bind, ByteReader.peek, ByteReader.ofCursor, Cursor.peek?, hrest]
      rfl
    rw [hrest] at hlength
    rw [hrun]
    refine lawful_of_not_fits fun hfits => ?_
    exact absurd hlength (Nat.ne_of_lt hfits)
  | cons b rest =>
    have hrun : peek.run c = (.ok (.octet b), c) := by
      refine run_of_reader_ok ?_
      show EStateM.bind ByteReader.peek _ c = _
      rw [EStateM.bind, ByteReader.peek, ByteReader.ofCursor, Cursor.peek?, hrest]
      rfl
    have hahead : c.ahead 1 = [b] := by
      rw [Cursor.ahead, c.drop_pos, hrest]
      rfl
    rw [hrest] at hlength
    have hfits : peek.Fits c := Nat.lt_of_lt_of_eq (Nat.succ_pos _) hlength
    rw [hrun]
    exact lawful_of_fits hfits rfl rfl ⟨b, hahead, rfl⟩

/-- **Every step is lawful**, at any cursor. -/
theorem lawful_run (s : ReadStep) (c : Cursor) : s.Lawful c (s.run c) := by
  cases s with
  | seek n => exact lawful_run_seek n c
  | peek => exact lawful_run_peek c
  | skip n => exact lawful_run_of_length? rfl c
  | octets n => exact lawful_run_of_length? rfl c
  | text n => exact lawful_run_of_length? rfl c
  | unsigned n => exact lawful_run_of_length? rfl c
  | signed n => exact lawful_run_of_length? rfl c

/-! ## 6. Runs -/

/-- Results of steps, each of which is lawful at the cursor that the one before left. -/
inductive Traced : Cursor → List ReadStep → List (Except Error ReadAnswer × Cursor) → Prop
  | nil (c : Cursor) : Traced c [] []
  | cons {c : Cursor} {s : ReadStep} {r ss rs} (first : s.Lawful c r) (rest : Traced r.2 ss rs) :
      Traced c (s :: ss) (r :: rs)

/-- **Every run is one of lawful steps**, wherever it starts. -/
theorem traced_trace (ss : List ReadStep) (c : Cursor) : Traced c ss (trace ss c) := by
  induction ss generalizing c with
  | nil => exact .nil c
  | cons s ss ih => exact .cons (lawful_run s c) (ih _)

end ReadStep

/-- **Reading steps in any order**, from the start of any data. The first step starts at position
    zero, with all of the data left, and every step is lawful at the cursor that the one before it
    left, whether that one failed or not. -/
theorem traced_trace_ofBytes (data : Bytes) (ss : List ReadStep) :
    (Cursor.ofBytes data).pos = 0 ∧ (Cursor.ofBytes data).remaining = data.length ∧
      (Cursor.ofBytes data).size = data.length ∧
      ReadStep.Traced (.ofBytes data) ss (ReadStep.trace ss (.ofBytes data)) :=
  ⟨rfl, rfl, rfl, ReadStep.traced_trace ss _⟩

end SdkConformance
