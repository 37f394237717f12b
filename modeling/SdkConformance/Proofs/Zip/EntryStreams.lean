import Mathlib.Logic.Relation
import SdkConformance.Proofs.Zip.DirectoryEntries
import SdkConformance.Proofs.Zip.InflateLimits

/-!
# Reading entries

An entry is read by taking at most one octet more than the directory says it has. Whether it is as
long as that and whether its checksum agrees follows from the octets that are taken, in whatever
pieces they come.

* `ZipEntry.Streams`: all that an entry delivers, whatever its size is said to be;
* `ZipEntry.deliver_of_streams`: what is delivered of it where only so many octets are wanted;
* `Draining`, `Draining.Step`: a reader that takes piece after piece; `Draining.Step.accounts` and
  `Draining.accounts_of_reaches` are the invariant of its step and of its run;
* `read_of_streams`: what a jar answers for each of its entries.
-/

namespace SdkConformance

/-! ## 1. Streams -/

namespace ZipEntry

/-- All that an entry delivers: what is delivered where no fewer octets are wanted. -/
def Streams (e : ZipEntry) (data : Bytes) (d : Delivery) : Prop :=
  ∃ size, d.octets.length ≤ size ∧ { e with size }.deliver data = .ok d

section Streams

variable {e : ZipEntry} {data : Bytes} {d : Delivery}

/-- The octets of the container that an entry is in. -/
def packed (e : ZipEntry) (data : Bytes) : Bytes :=
  let header := data.drop e.headerStart
  let start := 30 + Bytes.numberAt header 26 2 + Bytes.numberAt header 28 2
  (header.drop start).take e.compressedSize

/-- What an entry delivers depends on its size only if it is inflated. -/
theorem deliver_cases (e : ZipEntry) (data : Bytes) :
    (∃ fault, ∀ size, { e with size }.deliver data = .error fault) ∨
    (∀ size, { e with size }.deliver data = .ok ⟨e.packed data, true⟩) ∨
    ∀ size, { e with size }.deliver data = .ok (.inflated size (e.packed data)) := by
  by_cases hlocked : e.isLocked
  · exact Or.inl ⟨_, fun _ => if_pos hlocked⟩
  by_cases hshort : !holds 30 (data.drop e.headerStart)
  · exact Or.inl ⟨_, fun _ => (if_neg hlocked).trans (if_pos hshort)⟩
  by_cases hinvalid : !Bytes.startsWith ZipSignature.localHeader (data.drop e.headerStart)
  · exact Or.inl ⟨_, fun _ => (if_neg hlocked).trans ((if_neg hshort).trans (if_pos hinvalid))⟩
  have hopen : ∀ size, { e with size }.deliver data =
      if e.compression = 0 then .ok ⟨e.packed data, true⟩
      else if e.compression = 8 then .ok (.inflated size (e.packed data))
      else .error .unsupported := fun _ =>
    (if_neg hlocked).trans ((if_neg hshort).trans (if_neg hinvalid))
  by_cases hstored : e.compression = 0
  · exact Or.inr (Or.inl fun size => (hopen size).trans (if_pos hstored))
  by_cases hdeflated : e.compression = 8
  · refine Or.inr (Or.inr fun size => (hopen size).trans ?_)
    exact (if_neg hstored).trans (if_pos hdeflated)
  · refine Or.inl ⟨.unsupported, fun size => (hopen size).trans ?_⟩
    exact (if_neg hstored).trans (if_neg hdeflated)

/-- An entry that can be opened delivers something, and not without end. -/
theorem exists_streams {d₀ : Delivery} (h : e.deliver data = .ok d₀) : ∃ d, e.Streams data d := by
  rcases deliver_cases e data with ⟨fault, hfault⟩ | hstored | hinflated
  · cases h.symm.trans (hfault e.size)
  · exact ⟨_, _, Nat.le_refl _, hstored _⟩
  · obtain ⟨size, hsize⟩ := Inflate.exists_length_inPieces_lt (e.packed data)
    cases size with
    | zero => cases hsize
    | succ size => exact ⟨_, size, Nat.le_of_lt_succ hsize, hinflated size⟩

/-- Where only so many octets are wanted as the directory says, these are the first ones of the
    stream, and the whole stream if it has no more. -/
theorem deliver_of_streams (h : e.Streams data d) : ∃ d', e.deliver data = .ok d' ∧
    d'.octets.take (e.size + 1) = d.octets.take (e.size + 1) ∧
    (d.octets.length ≤ e.size → d' = d) := by
  obtain ⟨size, hsize, hd⟩ := h
  rcases deliver_cases e data with ⟨fault, hfault⟩ | hstored | hinflated
  · cases hd.symm.trans (hfault size)
  · cases hd.symm.trans (hstored size)
    exact ⟨_, hstored e.size, rfl, fun _ => rfl⟩
  · cases hd.symm.trans (hinflated size)
    refine ⟨_, hinflated e.size, ?_⟩
    unfold Delivery.inflated at hsize ⊢
    dsimp only at hsize ⊢
    rcases Nat.le_total e.size size with hle | hle
    · obtain ⟨htake, hall⟩ := Inflate.inPieces_of_le (e.packed data) (Nat.add_le_add_right hle 1)
      refine ⟨htake.symm, fun hlength => ?_⟩
      have hshort := congrArg List.length htake
      rw [List.length_take, List.length_take] at hshort
      rw [hall (by omega)]
    · obtain ⟨-, hall⟩ := Inflate.inPieces_of_le (e.packed data) (Nat.add_le_add_right hle 1)
      rw [hall (Nat.lt_succ_of_le hsize)]
      exact ⟨rfl, fun _ => rfl⟩

/-! ## 2. What is accepted -/

/-- More octets than the entry has are never looked at. -/
theorem accept_of_lt (h : e.size < d.octets.length) :
    e.accept d = .error (.entrySize e.name e.size) := by
  have hholds : holds (e.size + 1) (d.octets.take (e.size + 1)) = true := by
    rw [holds_iff, List.length_take]
    omega
  exact if_pos hholds

/-- The octets of an entry, if there are as many as there should be. -/
def measured (e : ZipEntry) (bs : Bytes) : Except Malformation Bytes :=
  if bs.length = e.size then .ok bs else .error (.entrySize e.name e.size)

/-- Without such an octet the end and the checksum come before the size. -/
theorem accept_of_le (h : d.octets.length ≤ e.size) :
    e.accept d = if d.isIntact = true ∧ Crc32.checksum d.octets = e.crc then e.measured d.octets
      else .error (.entryDamaged e.name) := by
  have hall : d.octets.take (e.size + 1) = d.octets := List.take_of_length_le (by omega)
  have hholds : ¬ holds (e.size + 1) d.octets = true := by
    rw [holds_iff]
    omega
  unfold accept
  rw [hall]
  dsimp only
  rw [if_neg hholds]
  by_cases hintact : d.isIntact = true ∧ Crc32.checksum d.octets = e.crc
  · rw [if_pos hintact, measured, hintact.1, hintact.2]
    simp
  · rw [if_neg hintact, if_pos]
    rw [Bool.or_eq_true, Bool.not_eq_true', bne_iff_ne, ← Bool.not_eq_true]
    exact Decidable.not_and_iff_not_or_not.mp hintact

/-- Octets are accepted only if nothing at all is wrong with them. -/
theorem accept_eq_ok_iff {x : Bytes} : e.accept d = .ok x ↔ d.isIntact = true ∧
    d.octets.length = e.size ∧ Crc32.checksum d.octets = e.crc ∧ x = d.octets := by
  rcases Nat.lt_or_ge e.size d.octets.length with hlt | hle
  · rw [accept_of_lt hlt]
    exact ⟨nofun, fun h => absurd h.2.1 (Nat.ne_of_gt hlt)⟩
  · rw [accept_of_le hle, measured]
    constructor
    · intro h
      split at h
      · rename_i hgood
        split at h
        · rename_i hsize
          cases h
          exact ⟨hgood.1, hsize, hgood.2, rfl⟩
        · cases h
      · cases h
    · intro h
      obtain ⟨hintact, hsize, hcrc, rfl⟩ := h
      rw [if_pos ⟨hintact, hcrc⟩, if_pos hsize]

/-- What is accepted depends on nothing behind the octet that is one too many. -/
theorem accept_congr {d' : Delivery}
    (htake : d'.octets.take (e.size + 1) = d.octets.take (e.size + 1))
    (hall : d.octets.length ≤ e.size → d' = d) : e.accept d' = e.accept d := by
  rcases Nat.lt_or_ge e.size d.octets.length with hlt | hle
  · have hlength := congrArg List.length htake
    rw [List.length_take, List.length_take] at hlength
    rw [accept_of_lt hlt, accept_of_lt (by omega)]
  · rw [hall hle]

end Streams

end ZipEntry

/-! ## 3. Reading in pieces -/

/-- An entry that is read, piece after piece. -/
structure Draining where
  /-- The octets that were taken, and those that are still to come. -/
  taken : Bytes
  left : Bytes
  /-- The checksum under way. -/
  register : UInt32
  /-- How many octets may still be taken. -/
  room : Nat

namespace Draining

/-- How many octets are taken at most: one more than there should be, in a number of 64 bits. -/
def limit (size : Nat) : Nat := min (size + 1) (UInt64.size - 1)

/-- Before anything is taken. -/
def start (e : ZipEntry) (d : Delivery) : Draining := ⟨[], d.octets, 0xFFFFFFFF, limit e.size⟩

/-- Some octets are taken, as many as there is room for at most. -/
inductive Step : Draining → Draining → Prop
  | piece (taken piece left : Bytes) (register : UInt32) (room : Nat) (hne : piece ≠ [])
      (hroom : piece.length ≤ room) :
      Step ⟨taken, piece ++ left, register, room⟩
        ⟨taken ++ piece, left, piece.foldl Crc32.step register, room - piece.length⟩

/-- What the reading comes to where it ends. Without room nothing more is asked for; at the end of
    the octets their checksum is compared. -/
def outcome? (e : ZipEntry) (isIntact : Bool) (s : Draining) : Option (Except Malformation Bytes) :=
  if s.room = 0 then some (e.measured s.taken)
  else if s.left = [] then
    if isIntact = true ∧ s.register ^^^ 0xFFFFFFFF = e.crc then some (e.measured s.taken)
    else some (.error (.entryDamaged e.name))
  else none

/-- The readings of an entry that delivers something. -/
def Reaches (e : ZipEntry) (d : Delivery) (s : Draining) : Prop :=
  Relation.ReflTransGen Step (start e d) s

section Runs

variable {e : ZipEntry} {d : Delivery} {s t : Draining}

/-- The octets are split, the register has taken those in front, and the room is what they left. -/
structure Accounts (e : ZipEntry) (d : Delivery) (s : Draining) : Prop where
  octets : s.taken ++ s.left = d.octets
  register : s.register = s.taken.foldl Crc32.step 0xFFFFFFFF
  room : s.taken.length + s.room = limit e.size

theorem accounts_start (e : ZipEntry) (d : Delivery) : Accounts e d (start e d) where
  octets := rfl
  register := rfl
  room := Nat.zero_add _

/-- A piece keeps the accounts, however long it is. -/
theorem Step.accounts (h : Step s t) (hs : Accounts e d s) : Accounts e d t := by
  cases h with
  | piece taken piece left register room hne hroom =>
    refine ⟨?_, ?_, ?_⟩
    · exact (List.append_assoc ..).trans hs.octets
    · exact (congrArg (piece.foldl Crc32.step) hs.register).trans List.foldl_append.symm
    · have hrest : taken.length + room = limit e.size := hs.room
      show (taken ++ piece).length + (room - piece.length) = _
      rw [List.length_append]
      omega

/-- Every piece takes something, so there are no more pieces than octets that may be taken. -/
theorem Step.length_lt (h : Step s t) : s.taken.length < t.taken.length := by
  cases h with
  | piece taken piece left register room hne hroom =>
    have hpos := List.length_pos_iff.mpr hne
    show taken.length < (taken ++ piece).length
    rw [List.length_append]
    omega

theorem accounts_of_reaches (h : Reaches e d s) : Accounts e d s := by
  induction h with
  | refl => exact accounts_start e d
  | tail _ hstep ih => exact hstep.accounts ih

/-- **Wherever a reading ends**, it comes to what the entry accepts. -/
theorem Accounts.outcome (hs : Accounts e d s) (hsize : e.size < UInt64.size)
    (hlength : d.octets.length < UInt64.size / 2) {r : Except Malformation Bytes}
    (h : outcome? e d.isIntact s = some r) : r = e.accept d := by
  have hsplit := congrArg List.length hs.octets
  rw [List.length_append] at hsplit
  have hroom := hs.room
  unfold limit at hroom
  unfold outcome? at h
  by_cases hfull : s.room = 0
  · -- the octet that is one too many was taken, since no stream is as long as the largest number
    rw [if_pos hfull] at h
    cases h
    have hmore : e.size < s.taken.length := by omega
    rw [ZipEntry.accept_of_lt (by omega), ZipEntry.measured, if_neg (by omega)]
  · rw [if_neg hfull] at h
    by_cases hend : s.left = []
    · rw [if_pos hend] at h
      have htaken : s.taken = d.octets := by
        rw [← hs.octets, hend, List.append_nil]
      have hchecksum : s.register ^^^ 0xFFFFFFFF = Crc32.checksum d.octets := by
        rw [hs.register, htaken, Crc32.checksum]
      rw [htaken] at hroom
      rw [hchecksum, htaken] at h
      rw [ZipEntry.accept_of_le (by omega)]
      split at h <;> rename_i hgood
      · rw [if_pos hgood]
        exact (Option.some.inj h).symm
      · rw [if_neg hgood]
        exact (Option.some.inj h).symm
    · rw [if_neg hend] at h
      cases h

/-- **No reading is stuck**: from wherever it is, some pieces lead to an end. -/
theorem exists_outcome (e : ZipEntry) (isIntact : Bool) (s : Draining) :
    ∃ t, Relation.ReflTransGen Step s t ∧ (outcome? e isIntact t).isSome = true := by
  obtain ⟨taken, left, register, room⟩ := s
  induction left generalizing taken register room with
  | nil =>
    refine ⟨_, .refl, ?_⟩
    unfold outcome?
    rw [if_pos rfl]
    split
    · rfl
    · split <;> rfl
  | cons b left ih =>
    cases room with
    | zero => exact ⟨_, .refl, rfl⟩
    | succ room =>
      obtain ⟨t, ht, hend⟩ := ih (taken ++ [b]) (Crc32.step register b) room
      have hstep : Step ⟨taken, b :: left, register, room + 1⟩
          ⟨taken ++ [b], left, Crc32.step register b, room⟩ :=
        .piece taken [b] left register (room + 1) nofun (Nat.le_add_left 1 room)
      exact ⟨t, .head hstep ht, hend⟩

end Runs

end Draining

/-! ## 4. What a jar answers -/

section Read

variable {data : Bytes} {j : Jar} {name : String} {e : ZipEntry} {d : Delivery}

/-- The answer of a jar, from what is accepted. -/
def answer : Except Malformation Bytes → Except Error (Option Bytes)
  | .ok bs => .ok (some bs)
  | .error m => .error (.malformed m)

theorem answer_eq_ok_iff {r : Except Malformation Bytes} {x : Bytes} :
    answer r = .ok (some x) ↔ r = .ok x := by
  cases r with
  | ok bs => rw [answer, Except.ok.injEq, Except.ok.injEq, Option.some.injEq]
  | error m => exact ⟨nofun, nofun⟩

/-- A jar answers with what the entry accepts of its stream. -/
theorem read_eq (hj : Jar.ofBytes data = .ok j) (he : Recorded data name e)
    (hd : e.Streams data d) : j.read name = answer (e.accept d) := by
  obtain ⟨d', hd', htake, hall⟩ := ZipEntry.deliver_of_streams hd
  rw [Jar.read, (entry?_eq_some_iff hj).mpr he, (Jar.indexed_of_ofBytes hj).1]
  dsimp only
  rw [hd']
  dsimp only
  rw [ZipEntry.accept_congr htake hall]
  cases e.accept d <;> rfl

/-- An entry has a stream, or it cannot be opened. -/
theorem streams_or_fault (hj : Jar.ofBytes data = .ok j) (he : Recorded data name e) :
    (∃ d, e.Streams data d) ∨ ∃ fault, j.read name = .error (.zip fault) := by
  cases hdeliver : e.deliver data with
  | ok d => exact Or.inl (ZipEntry.exists_streams hdeliver)
  | error fault =>
    refine Or.inr ⟨fault, ?_⟩
    rw [Jar.read, (entry?_eq_some_iff hj).mpr he, (Jar.indexed_of_ofBytes hj).1]
    dsimp only
    rw [hdeliver]

open Draining in
/-- What a jar answers for an entry of a name that has a stream. -/
structure Answered (j : Jar) (name : String) (e : ZipEntry) (d : Delivery) : Prop where
  /-- There are octets only if nothing is wrong with them, and these are all. -/
  octets : ∀ x, j.read name = .ok (some x) ↔ d.isIntact = true ∧ d.octets.length = e.size ∧
    Crc32.checksum d.octets = e.crc ∧ x = d.octets
  /-- Too many octets are reported whatever else is wrong, and whatever follows. -/
  longer : e.size < d.octets.length → j.read name = .error (.malformed (.entrySize name e.size))
  /-- Else damage and the checksum are reported. -/
  damaged : d.octets.length ≤ e.size → d.isIntact = false ∨ Crc32.checksum d.octets ≠ e.crc →
    j.read name = .error (.malformed (.entryDamaged name))
  /-- Too few octets are reported if nothing else is wrong. -/
  shorter : d.isIntact = true → d.octets.length < e.size → Crc32.checksum d.octets = e.crc →
    j.read name = .error (.malformed (.entrySize name e.size))
  /-- Reading in pieces never takes more than one octet too many. Every piece takes something, the
      reading can be brought to an end from everywhere, and wherever it ends it comes to this
      answer. -/
  pieces : ∀ s, Reaches e d s → s.taken <+: d.octets ∧ s.taken.length ≤ e.size + 1 ∧
    (∀ t, Step s t → s.taken.length < t.taken.length) ∧
    (∃ t, Relation.ReflTransGen Step s t ∧ (outcome? e d.isIntact t).isSome = true) ∧
    ∀ r, outcome? e d.isIntact s = some r → j.read name = answer r

theorem answered (hj : Jar.ofBytes data = .ok j) (he : Recorded data name e)
    (hd : e.Streams data d) (hlength : d.octets.length < UInt64.size / 2) :
    Answered j name e d := by
  have hread := read_eq hj he hd
  have hsize := he.size_lt
  obtain ⟨-, -, -, hname, -⟩ := he
  refine ⟨fun x => ?_, fun hlonger => ?_, fun hle hwrong => ?_, fun hintact hshort hcrc => ?_,
    fun s hs => ?_⟩
  · rw [hread, answer_eq_ok_iff, ZipEntry.accept_eq_ok_iff]
  · rw [hread, ZipEntry.accept_of_lt hlonger, hname]
    rfl
  · have hbad : ¬ (d.isIntact = true ∧ Crc32.checksum d.octets = e.crc) := by
      intro hgood
      rcases hwrong with hlost | hcrc
      · cases hgood.1.symm.trans hlost
      · exact hcrc hgood.2
    rw [hread, ZipEntry.accept_of_le hle, if_neg hbad, hname]
    rfl
  · rw [hread, ZipEntry.accept_of_le (Nat.le_of_lt hshort), if_pos ⟨hintact, hcrc⟩,
      ZipEntry.measured, if_neg (Nat.ne_of_lt hshort), hname]
    rfl
  · have haccounts := Draining.accounts_of_reaches hs
    refine ⟨⟨s.left, haccounts.octets⟩, ?_, fun t ht => ht.length_lt,
      Draining.exists_outcome e d.isIntact s, fun r hr => ?_⟩
    · have hroom := haccounts.room
      unfold Draining.limit at hroom
      omega
    · rw [hread, haccounts.outcome hsize hlength hr]

end Read

/-- **What a jar answers** for each of its names follows from the size and the checksum that its
    directory records, of any size in 64 bits, and from the stream of the entry: its octets if it
    ends well, is as long as recorded and has the checksum, and else what is wrong with it. -/
theorem read_of_streams {data : Bytes} {j : Jar} {name : String} (hj : Jar.ofBytes data = .ok j)
    (hname : name ∈ j.names) : ∃ e, Recorded data name e ∧ e.size < UInt64.size ∧
      ((∃ d, e.Streams data d) ∨ ∃ fault, j.read name = .error (.zip fault)) ∧
      ∀ d, e.Streams data d → d.octets.length < UInt64.size / 2 → Answered j name e d := by
  obtain ⟨e, he⟩ := (mem_names_iff hj).mp hname
  exact ⟨e, he, he.size_lt, streams_or_fault hj he, fun d hd hlength => answered hj he hd hlength⟩

/-- The part that the two headers of a stored entry have in common. -/
def storedPart (crc : Bytes) (packed size : UInt8) : Bytes :=
  [10, 0, 0, 0, 0, 0, 0, 0, 0, 0] ++ crc ++ [packed, 0, 0, 0, size, 0, 0, 0, 1, 0, 0, 0]

/-- A container with two entries: `a` with one octet, and `b` with one more than is recorded. -/
def twoEntries : Bytes :=
  let a := storedPart [0x43, 0xBE, 0xB7, 0xE8] 1 1
  let b := storedPart [0, 0, 0, 0] 2 1
  let place (start : UInt8) : Bytes := [0, 0, 0, 0, 0, 0, 0, 0, 0, 0, start, 0, 0, 0]
  ZipSignature.localHeader ++ a ++ [0x61, 0x61] ++
  ZipSignature.localHeader ++ b ++ [0x62, 0x62, 0x62] ++
  ZipSignature.header ++ [10, 0] ++ a ++ place 0 ++ [0x61] ++
  ZipSignature.header ++ [10, 0] ++ b ++ place 32 ++ [0x62] ++
  ZipSignature.endRecord ++ [0, 0, 0, 0, 2, 0, 2, 0, 94, 0, 0, 0, 65, 0, 0, 0, 0, 0]

def entryA : ZipEntry := ⟨"a", [0x61], "", false, false, 0, 0xE8B7BE43, 1, 1, 0⟩

def entryB : ZipEntry := ⟨"b", [0x62], "", false, false, 0, 0, 2, 1, 32⟩

/-- The first entry is read, and the second one is too long, whatever its checksum is. -/
theorem read_twoEntries : ∃ j, Jar.ofBytes twoEntries = .ok j ∧
    j.read "a" = .ok (some [0x61]) ∧ j.read "b" = .error (.malformed (.entrySize "b" 1)) := by
  have hfind : ZipDirectory.find twoEntries = .ok [entryA, entryB] :=
    eq_ok_of_toOption (by decide +kernel)
  have hj : Jar.ofBytes twoEntries =
      .ok ([entryA, entryB].foldl Jar.enter ⟨twoEntries, #[], ∅⟩) := by
    rw [Jar.ofBytes, hfind]
    rfl
  have ha : Recorded twoEntries "a" entryA := ⟨[], [entryB], hfind, rfl, by decide⟩
  have hb : Recorded twoEntries "b" entryB := ⟨[entryA], [], hfind, rfl, nofun⟩
  refine ⟨_, hj, ?_, ?_⟩
  · obtain ⟨e, he, -, -, hall⟩ := read_of_streams hj ((mem_names_iff hj).mpr ⟨_, ha⟩)
    obtain rfl : e = entryA := he.unique ha
    have hd : entryA.Streams twoEntries ⟨[0x61], true⟩ :=
      ⟨1, by decide, eq_ok_of_toOption (by decide +kernel)⟩
    have hcrc : Crc32.checksum [0x61] = entryA.crc := by decide +kernel
    exact ((hall _ hd (by decide)).octets [0x61]).mpr ⟨rfl, rfl, hcrc, rfl⟩
  · obtain ⟨e, he, -, -, hall⟩ := read_of_streams hj ((mem_names_iff hj).mpr ⟨_, hb⟩)
    obtain rfl : e = entryB := he.unique hb
    have hd : entryB.Streams twoEntries ⟨[0x62, 0x62], true⟩ :=
      ⟨2, by decide, eq_ok_of_toOption (by decide +kernel)⟩
    exact (hall _ hd (by decide)).longer (by decide)

end SdkConformance
