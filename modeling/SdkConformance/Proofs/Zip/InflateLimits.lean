import SdkConformance.Zip.Inflate

/-!
# Limits on inflating

Inflating ends as soon as there is more than a limit, so that a small stream cannot fill the memory.
The limit does nothing but that: a run that it does not end is the run without a limit, and a run
that it ends has the first octets of every run with a larger one.

* `Reads`: reading codes never ends for having enough, and leaves no more bits than there were;
  `size_decode_lt` for a symbol, which leaves less;
* `Limited`: what a limit may do to a run; `Limited.guarded` and `Limited.andThen` are its steps,
  `limited_symbols` and `limited_blocks` the runs of them;
* `inPieces_of_le`: of a stream the same octets are handed out, however many more are wanted;
* `exists_length_inPieces_lt`: no stream yields octets without end.
-/

namespace SdkConformance.Inflate

/-! ## 1. Reading codes -/

/-- The answer does not depend on how many octets are wanted. -/
def Unlimited {α : Type} (x : Except InflateStop α) : Prop := x ≠ .error .enough

/-- What reading from bits may do. -/
structure Reads {α : Type} (s : BitSource) (behind : α → BitSource) (x : Except InflateStop α) :
    Prop where
  unlimited : Unlimited x
  /-- Behind an answer there are no more bits than there were. -/
  size_le : ∀ a, x = .ok a → (behind a).size ≤ s.size

section Codes

variable {α β : Type} {s : BitSource} {behind : α → BitSource} {behind' : β → BitSource}

theorem unlimited_ok (a : α) : Unlimited (.ok a) := nofun

theorem unlimited_corrupt (unread : Nat) : Unlimited (.error (.corrupt unread) : Except _ α) :=
  nofun

theorem unlimited_cutOff : Unlimited (.error .cutOff : Except _ α) := nofun

/-- What stops a reading stops what follows it. -/
theorem Unlimited.of_error {stop : InflateStop} (h : Unlimited (.error stop : Except _ α)) :
    Unlimited (.error stop : Except _ β) :=
  fun heq => h (congrArg Except.error (Except.error.inj heq))

theorem reads_ok {a : α} (h : (behind a).size ≤ s.size) : Reads s behind (.ok a) where
  unlimited := unlimited_ok a
  size_le a' ha := by
    cases ha
    exact h

theorem reads_error {stop : InflateStop} (h : Unlimited (.error stop : Except _ α)) :
    Reads s behind (.error stop) where
  unlimited := h
  size_le := nofun

theorem Reads.bind {x : Except InflateStop α} {f : α → Except InflateStop β}
    (hx : Reads s behind x) (hf : ∀ a, Reads (behind a) behind' (f a)) :
    Reads s behind' (x >>= f) := by
  cases x with
  | ok a =>
    have hsize := hx.size_le a rfl
    exact ⟨(hf a).unlimited, fun b hb => Nat.le_trans ((hf a).size_le b hb) hsize⟩
  | error stop => exact reads_error hx.unlimited.of_error

theorem reads_bits (n : Nat) (s : BitSource) : Reads s Prod.snd (bits n s) := by
  unfold bits
  cases hbits : s.bits? n with
  | none => exact reads_error unlimited_cutOff
  | some r =>
    have hsize := BitSource.size_bits? hbits
    exact reads_ok (by omega)

theorem reads_demand (condition : Bool) (s : BitSource) :
    Reads s (fun _ => s) (demand condition s) := by
  unfold demand
  split
  · exact reads_ok (Nat.le_refl _)
  · exact reads_error (unlimited_corrupt _)

theorem reads_tabled (table : Array (Nat × Nat)) (symbol : Nat) (s : BitSource) :
    Reads s Prod.snd (tabled table symbol s) := by
  unfold tabled
  split
  · exact reads_error (unlimited_corrupt _)
  · exact (reads_bits _ s).bind fun _ => reads_ok (Nat.le_refl _)

/-- **A symbol takes a bit at least.** -/
theorem decodeFrom_takes (code first : Nat) (levels : List (Array Nat)) (s : BitSource) :
    Unlimited (HuffmanCode.decodeFrom code first levels s) ∧
      ∀ r, HuffmanCode.decodeFrom code first levels s = .ok r → r.2.size < s.size := by
  induction levels generalizing code first s with
  | nil => exact ⟨unlimited_corrupt _, nofun⟩
  | cons level levels ih =>
    rw [HuffmanCode.decodeFrom]
    cases hbit : s.bit? with
    | none => exact ⟨unlimited_cutOff, nofun⟩
    | some r =>
      have hsize := BitSource.size_bit? hbit
      dsimp only
      split
      · refine ⟨unlimited_ok _, fun read hread => ?_⟩
        cases hread
        exact Nat.lt_of_succ_le (Nat.le_of_eq hsize)
      · split
        · exact ⟨unlimited_corrupt _, nofun⟩
        · obtain ⟨hunlimited, hlt⟩ := ih (2 * (code + r.1)) (2 * (first + level.size)) r.2
          refine ⟨hunlimited, fun read hread => ?_⟩
          have hless := hlt read hread
          omega

theorem size_decode_lt {code : HuffmanCode} {r : Nat × BitSource} (h : code.decode s = .ok r) :
    r.2.size < s.size :=
  (decodeFrom_takes 0 0 code.levels s).2 r h

theorem reads_decode (code : HuffmanCode) (s : BitSource) : Reads s Prod.snd (code.decode s) where
  unlimited := (decodeFrom_takes 0 0 code.levels s).1
  size_le _ h := Nat.le_of_lt (size_decode_lt h)

theorem reads_reference (distances : HuffmanCode) (symbol : Nat) (s : BitSource) :
    Reads s (·.2.2) (reference distances symbol s) := by
  unfold reference
  refine (reads_tabled _ _ s).bind fun r => ?_
  refine (reads_decode distances r.2).bind fun r => ?_
  exact (reads_tabled _ _ r.2).bind fun _ => reads_ok (Nat.le_refl _)

theorem reads_lengthLengths (order : List Nat) (s : BitSource) (done : List (Nat × Nat)) :
    Reads s Prod.snd (lengthLengths order s done) := by
  induction order generalizing s done with
  | nil => exact reads_ok (Nat.le_refl _)
  | cons symbol order ih => exact (reads_bits 3 s).bind fun r => ih r.2 _

theorem reads_codeLengths (total : Nat) (code : HuffmanCode) (fuel : Nat) (s : BitSource)
    (done : List Nat) : Reads s Prod.snd (codeLengths total code fuel s done) := by
  induction fuel generalizing s done with
  | zero =>
    unfold codeLengths
    split
    · exact reads_ok (Nat.le_refl _)
    · split <;> exact reads_error (unlimited_corrupt _)
  | succ fuel ih =>
    unfold codeLengths
    split
    · exact reads_ok (Nat.le_refl _)
    split
    · exact reads_error (unlimited_corrupt _)
    refine (reads_decode code s).bind fun r => ?_
    dsimp only
    split
    · exact ih _ _
    split
    · split
      · exact reads_error (unlimited_corrupt _)
      · exact (reads_bits 2 _).bind fun r => ih r.2 _
    split
    · exact (reads_bits 3 _).bind fun r => ih r.2 _
    · exact (reads_bits 7 _).bind fun r => ih r.2 _

theorem reads_ownCodes (s : BitSource) : Reads s (·.2.2) (ownCodes s) := by
  refine (reads_bits 5 s).bind fun r => ?_
  refine (reads_bits 5 r.2).bind fun r => ?_
  refine (reads_bits 4 r.2).bind fun r => ?_
  refine (reads_demand _ r.2).bind fun _ => ?_
  refine (reads_lengthLengths _ r.2 []).bind fun r => ?_
  refine (reads_demand _ r.2).bind fun _ => ?_
  refine (reads_codeLengths _ _ _ r.2 []).bind fun r => ?_
  refine (reads_demand _ r.2).bind fun _ => ?_
  exact (reads_demand _ r.2).bind fun _ => reads_ok (Nat.le_refl _)

theorem reads_blockCodes (kind : Nat) (s : BitSource) :
    Reads s (·.2.2) (blockCodes kind s) := by
  unfold blockCodes
  split
  · exact reads_ok (Nat.le_refl _)
  · split
    · exact reads_ownCodes s
    · exact reads_error (unlimited_corrupt _)

end Codes

/-! ## 2. Octets that are added to -/

/-- Octets that others go on from. -/
def Extends (out out' : ByteArray) : Prop := out.data.toList <+: out'.data.toList

namespace Extends

variable {a b c : ByteArray}

theorem refl (a : ByteArray) : Extends a a := List.prefix_rfl

theorem trans (h : Extends a b) (h' : Extends b c) : Extends a c := List.IsPrefix.trans h h'

theorem size_le (h : Extends a b) : a.size ≤ b.size := by
  have := List.IsPrefix.length_le h
  rwa [Array.length_toList, Array.length_toList] at this

theorem push (a : ByteArray) (b : UInt8) : Extends a (a.push b) :=
  ⟨[b], (Array.toList_push).symm⟩

end Extends

theorem extends_append (bs : Bytes) (out : ByteArray) : Extends out (append out bs) := by
  induction bs generalizing out with
  | nil => exact .refl out
  | cons b bs ih => exact (Extends.push out b).trans (ih _)

theorem extends_copy (distance n : Nat) (out : ByteArray) : Extends out (copy distance n out) := by
  induction n generalizing out with
  | zero => exact .refl out
  | succ n ih => exact (Extends.push out _).trans (ih _)

theorem size_copy (distance n : Nat) (out : ByteArray) :
    (copy distance n out).size = out.size + n := by
  induction n generalizing out with
  | zero => rfl
  | succ n ih =>
    refine (ih _).trans ?_
    rw [ByteArray.size_push, Nat.add_assoc, Nat.add_comm 1 n]

/-! ## 3. What a limit may do -/

/-- What a limit may do to a run that goes on from given octets: it ends it as soon as there are so
    many, and else it leaves it as it is. -/
structure Limited {α : Type} (out : ByteArray) (run : Nat → Except InflateStop α × ByteArray) :
    Prop where
  /-- What there was stays. -/
  keeps : ∀ L, Extends out (run L).2
  /-- A run that is not ended had room. -/
  room : ∀ L, out.size ≤ L → Unlimited (run L).1 → (run L).2.size ≤ L
  /-- A run that is ended has used it up. -/
  full : ∀ L, (run L).1 = .error .enough → L ≤ (run L).2.size
  /-- A run that is not ended does not depend on the limit. -/
  same : ∀ L M, L ≤ M → Unlimited (run L).1 → run M = run L
  /-- A run that is ended goes on under a larger limit. -/
  further : ∀ L M, L < M → (run L).1 = .error .enough →
    Extends (run L).2 (run M).2 ∧ L < (run M).2.size
  /-- Some limit does not end the run. -/
  ends : ∃ L, Unlimited (run L).1

section Steps

variable {α β : Type} {out : ByteArray}

theorem Limited.congr {run run' : Nat → Except InflateStop α × ByteArray} (h : Limited out run)
    (heq : ∀ L, run L = run' L) : Limited out run' :=
  funext heq ▸ h

/-- What adds nothing. -/
theorem limited_const {x : Except InflateStop α} (hx : Unlimited x) :
    Limited out fun _ => (x, out) where
  keeps _ := .refl out
  room _ h _ := h
  full _ h := absurd h hx
  same _ _ _ _ := rfl
  further _ _ _ h := absurd h hx
  ends := ⟨0, hx⟩

/-- A step that is taken if what there is after it does not exceed the limit. Otherwise the run
    ends there, or one octet before. -/
theorem Limited.guarded {cut out' : ByteArray} {exceeds : Nat → Prop} [DecidablePred exceeds]
    {next : Nat → Except InflateStop α × ByteArray} (hnext : Limited out' next)
    (hexceeds : ∀ L, exceeds L ↔ L < out'.size) (hcut : Extends out cut) (hcut' : Extends cut out')
    (hsize : out'.size ≤ cut.size + 1) :
    Limited out fun L => if exceeds L then (.error .enough, cut) else next L where
  keeps L := by
    split
    · exact hcut
    · exact (hcut.trans hcut').trans (hnext.keeps L)
  room L _ h := by
    by_cases hL : exceeds L
    · rw [if_pos hL] at h
      exact absurd rfl h
    · rw [if_neg hL] at h ⊢
      have hroom : out'.size ≤ L := Nat.le_of_not_lt fun hlt => hL ((hexceeds L).mpr hlt)
      exact hnext.room L hroom h
  full L h := by
    by_cases hL : exceeds L
    · rw [if_pos hL]
      have hlt := (hexceeds L).mp hL
      show L ≤ cut.size
      omega
    · rw [if_neg hL] at h ⊢
      exact hnext.full L h
  same L M hle h := by
    by_cases hL : exceeds L
    · rw [if_pos hL] at h
      exact absurd rfl h
    · rw [if_neg hL] at h ⊢
      have hM : ¬ exceeds M := by
        rw [hexceeds] at hL ⊢
        omega
      rw [if_neg hM]
      exact hnext.same L M hle h
  further L M hlt h := by
    by_cases hL : exceeds L
    · rw [if_pos hL]
      have hL' := (hexceeds L).mp hL
      by_cases hM : exceeds M
      · rw [if_pos hM]
        have hM' := (hexceeds M).mp hM
        refine ⟨.refl cut, ?_⟩
        show L < cut.size
        omega
      · rw [if_neg hM]
        have hbeyond := hnext.keeps M
        exact ⟨hcut'.trans hbeyond, Nat.lt_of_lt_of_le hL' hbeyond.size_le⟩
    · rw [if_neg hL] at h ⊢
      have hM : ¬ exceeds M := by
        rw [hexceeds] at hL ⊢
        omega
      rw [if_neg hM]
      exact hnext.further L M hlt h
  ends := by
    obtain ⟨L, hL⟩ := hnext.ends
    -- a limit that ends neither the step nor what follows
    have hlarge : ¬ exceeds (max L out'.size) := by
      rw [hexceeds]
      omega
    refine ⟨max L out'.size, ?_⟩
    rw [if_neg hlarge, hnext.same L _ (Nat.le_max_left ..) hL]
    exact hL

/-- One run after another that ended well. -/
def andThen (first : Nat → Except InflateStop α × ByteArray)
    (next : α → ByteArray → Nat → Except InflateStop β × ByteArray) (L : Nat) :
    Except InflateStop β × ByteArray :=
  match first L with
  | (.error stop, out) => (.error stop, out)
  | (.ok a, out) => next a out L

theorem Limited.andThen {first : Nat → Except InflateStop α × ByteArray}
    {next : α → ByteArray → Nat → Except InflateStop β × ByteArray} (hfirst : Limited out first)
    (hnext : ∀ a out', Limited out' (next a out')) : Limited out (andThen first next) where
  keeps L := by
    have h := hfirst.keeps L
    unfold Inflate.andThen
    rcases hL : first L with ⟨stop | a, out'⟩ <;> rw [hL] at h
    · exact h
    · exact h.trans ((hnext a out').keeps L)
  room L hout h := by
    have hroom := hfirst.room L hout
    unfold Inflate.andThen at h ⊢
    rcases hL : first L with ⟨stop | a, out'⟩ <;> rw [hL] at hroom h
    · exact hroom (Unlimited.of_error h)
    · exact (hnext a out').room L (hroom (unlimited_ok a)) h
  full L h := by
    have hfull := hfirst.full L
    unfold Inflate.andThen at h ⊢
    rcases hL : first L with ⟨stop | a, out'⟩ <;> rw [hL] at hfull h
    · exact hfull (congrArg Except.error (Except.error.inj h))
    · exact (hnext a out').full L h
  same L M hle h := by
    have hsame := hfirst.same L M hle
    unfold Inflate.andThen at h ⊢
    rcases hL : first L with ⟨stop | a, out'⟩ <;> rw [hL] at hsame h
    · rw [hsame (Unlimited.of_error h)]
    · rw [hsame (unlimited_ok a)]
      exact (hnext a out').same L M hle h
  further L M hlt h := by
    have hsame := hfirst.same L M (Nat.le_of_lt hlt)
    have hfurther := hfirst.further L M hlt
    unfold Inflate.andThen at h ⊢
    rcases hL : first L with ⟨stop | a, out'⟩ <;> rw [hL] at hsame hfurther h
    · -- the first run is ended, so it is the first one that goes on
      obtain ⟨hextends, hsize⟩ := hfurther (congrArg Except.error (Except.error.inj h))
      rcases hM : first M with ⟨stop' | a', out''⟩ <;> rw [hM] at hextends hsize
      · exact ⟨hextends, hsize⟩
      · have hbeyond := (hnext a' out'').keeps M
        exact ⟨hextends.trans hbeyond, Nat.lt_of_lt_of_le hsize hbeyond.size_le⟩
    · rw [hsame (unlimited_ok a)]
      exact (hnext a out').further L M hlt h
  ends := by
    obtain ⟨L, hL⟩ := hfirst.ends
    rcases heq : first L with ⟨stop | a, out'⟩
    · refine ⟨L, ?_⟩
      unfold Inflate.andThen
      rw [heq] at hL ⊢
      exact Unlimited.of_error hL
    · obtain ⟨M, hM⟩ := (hnext a out').ends
      refine ⟨max L M, ?_⟩
      unfold Inflate.andThen
      rw [hfirst.same L _ (Nat.le_max_left ..) hL, heq]
      show Unlimited (next a out' (max L M)).1
      rw [(hnext a out').same M _ (Nat.le_max_right ..) hM]
      exact hM

end Steps

/-! ## 4. Blocks -/

/-- A block of octets as they are is added whole, and then measured. -/
theorem limited_stored (s : BitSource) (out : ByteArray) : Limited out fun L => stored L s out := by
  unfold stored
  split
  · rename_i a b c d rest _
    dsimp only
    split
    · exact limited_const (unlimited_corrupt _)
    · refine Limited.guarded ?_ (fun _ => Iff.rfl) (extends_append _ _) (.refl _) (Nat.le_succ _)
      split
      · exact limited_const (unlimited_ok _)
      · exact limited_const unlimited_cutOff
  · exact limited_const unlimited_cutOff

/-- The symbols of a block, one by one. -/
theorem limited_symbols (literals distances : HuffmanCode) (fuel : Nat) (s : BitSource)
    (out : ByteArray) : Limited out fun L => symbols L literals distances fuel s out := by
  induction fuel generalizing s out with
  | zero =>
    simp only [symbols]
    exact limited_const (unlimited_corrupt _)
  | succ fuel ih =>
    have hdecode := (reads_decode literals s).unlimited
    simp only [symbols]
    cases hsymbol : literals.decode s with
    | error stop =>
      rw [hsymbol] at hdecode
      exact limited_const hdecode.of_error
    | ok r =>
      obtain ⟨symbol, s⟩ := r
      dsimp only
      by_cases hliteral : symbol < 256
      · simp only [if_pos hliteral]
        refine (ih s (out.push (UInt8.ofNat symbol))).guarded (fun L => ?_) (.refl out)
          (Extends.push out _) (Nat.le_of_eq ByteArray.size_push)
        rw [ByteArray.size_push, Nat.lt_succ_iff]
      · simp only [if_neg hliteral]
        by_cases hend : symbol = 256
        · simp only [if_pos hend]
          exact limited_const (unlimited_ok _)
        · simp only [if_neg hend]
          have hreference := (reads_reference distances symbol s).unlimited
          cases hcopy : reference distances symbol s with
          | error stop =>
            rw [hcopy] at hreference
            exact limited_const hreference.of_error
          | ok r =>
            obtain ⟨n, d, s⟩ := r
            refine (ih s (copy d n out)).guarded (fun L => ?_) (extends_copy d n out) (.refl _)
              (Nat.le_succ _)
            rw [size_copy]

theorem limited_block (fuel kind : Nat) (s : BitSource) (out : ByteArray) :
    Limited out fun L => block L fuel kind s out := by
  unfold block
  split
  · exact limited_stored s out
  · have hcodes := (reads_blockCodes kind s).unlimited
    cases hread : blockCodes kind s with
    | error stop =>
      rw [hread] at hcodes
      exact limited_const hcodes.of_error
    | ok r => exact limited_symbols r.1 r.2.1 fuel r.2.2 out

/-- **The limit of a run of blocks** does nothing but end it. -/
theorem limited_blocks (bitCount fuel : Nat) (s : BitSource) (out : ByteArray) :
    Limited out fun L => blocks L bitCount fuel s out := by
  induction fuel generalizing s out with
  | zero =>
    simp only [blocks]
    exact limited_const (unlimited_corrupt _)
  | succ fuel ih =>
    simp only [blocks]
    cases s.bits? 3 with
    | none => exact limited_const unlimited_cutOff
    | some r =>
      obtain ⟨header, s⟩ := r
      have hnext : ∀ s out, Limited out fun L =>
          if header % 2 = 1 then (.ok (), out) else blocks L bitCount fuel s out := by
        intro s out
        by_cases hlast : header % 2 = 1
        · simp only [if_pos hlast]
          exact limited_const (unlimited_ok _)
        · simp only [if_neg hlast]
          exact ih s out
      refine ((limited_block (bitCount + 1) (header / 2) s out).andThen hnext).congr fun L => ?_
      dsimp only [andThen]
      rcases block L (bitCount + 1) (header / 2) s out with ⟨stop | s', out'⟩ <;> rfl

theorem limited_inflate (data : Bytes) : Limited .empty fun L => inflate L data :=
  limited_blocks _ _ _ _

/-! ## 5. Pieces -/

/-- Up to where a stream is inflated if so many octets of it are wanted: full windows. -/
def windowLimit (size : Nat) : Nat := (size - 1) / windowSize * windowSize + windowSize

theorem le_windowLimit (size : Nat) : size ≤ windowLimit size := by
  have hmod := Nat.div_add_mod' (size - 1) windowSize
  have hlt : (size - 1) % windowSize < windowSize := Nat.mod_lt _ (by decide)
  unfold windowLimit
  omega

theorem windowLimit_mono {n m : Nat} (h : n ≤ m) : windowLimit n ≤ windowLimit m := by
  have hdiv : (n - 1) / windowSize ≤ (m - 1) / windowSize :=
    Nat.div_le_div_right (Nat.sub_le_sub_right h 1)
  exact Nat.add_le_add_right (Nat.mul_le_mul_right _ hdiv) _

/-- Octets beyond a limit fill the windows up to it. -/
theorem windowLimit_le_windows {n size : Nat} (h : windowLimit n < size) :
    windowLimit n ≤ (size - 1) / windowSize * windowSize := by
  have hdiv : (n - 1) / windowSize + 1 ≤ (size - 1) / windowSize := by
    rw [Nat.le_div_iff_mul_le (by decide), Nat.add_mul, Nat.one_mul]
    exact Nat.le_sub_one_of_lt h
  calc windowLimit n = ((n - 1) / windowSize + 1) * windowSize := by
        rw [Nat.add_mul, Nat.one_mul, windowLimit]
    _ ≤ _ := Nat.mul_le_mul_right _ hdiv

/-- What is handed out of a stream that is inflated up to a limit. -/
def handed (limit : Nat) (data : Bytes) : Bytes × Bool :=
  let (ending, out) := inflate limit data
  match ending with
  | .ok () | .error .enough => (out.data.toList, true)
  | .error .cutOff => (out.data.toList, false)
  | .error (.corrupt unread) =>
    let earlier := (data.length - unread - 1) / pieceSize * pieceSize
    let pieces := (inflate limit (data.take earlier)).2.size
    let windows := (out.size - 1) / windowSize * windowSize
    (out.data.toList.take (max pieces windows), false)

theorem inPieces_eq_handed (size : Nat) (data : Bytes) :
    inPieces size data = handed (windowLimit size) data := rfl

section Pieces

variable {data : Bytes} {L M n m : Nat}

theorem length_handed_le (L : Nat) (data : Bytes) :
    (handed L data).1.length ≤ (inflate L data).2.size := by
  unfold handed
  rcases inflate L data with ⟨ending, out⟩
  cases ending with
  | ok _ => exact Nat.le_of_eq Array.length_toList
  | error stop =>
    cases stop with
    | cutOff | enough => exact Nat.le_of_eq Array.length_toList
    | corrupt unread => exact List.length_take_le' _ _

/-- A run that is ended hands out everything. -/
theorem handed_of_enough (h : (inflate L data).1 = .error .enough) :
    handed L data = ((inflate L data).2.data.toList, true) := by
  unfold handed
  rcases hrun : inflate L data with ⟨ending, out⟩
  rw [hrun] at h
  dsimp only at h
  rw [h]

/-- An inflated prefix has at least as many octets as the limit, if that ended it. -/
theorem le_size_of_enough (hle : L ≤ M) (h : (inflate L data).1 = .error .enough) :
    L ≤ (inflate M data).2.size := by
  rcases Nat.eq_or_lt_of_le hle with rfl | hlt
  · exact (limited_inflate data).full L h
  · exact Nat.le_of_lt ((limited_inflate data).further L M hlt h).2

/-- A run that is not ended hands out the same under a larger limit. -/
theorem handed_of_unlimited (hle : L ≤ M) (h : Unlimited (inflate L data).1) :
    handed M data = handed L data := by
  have hroom := (limited_inflate data).room L (Nat.zero_le L) h
  unfold handed
  rw [(limited_inflate data).same L M hle h]
  rcases hrun : inflate L data with ⟨ending, out⟩
  cases ending with
  | ok _ => rfl
  | error stop =>
    cases stop with
    | cutOff | enough => rfl
    | corrupt unread =>
      rw [hrun] at hroom
      dsimp only
      generalize (data.length - unread - 1) / pieceSize * pieceSize = earlier
      by_cases hearlier : Unlimited (inflate L (data.take earlier)).1
      · rw [(limited_inflate _).same L M hle hearlier]
      · -- the earlier pieces alone fill the limit, so all is handed out in both runs
        have hended := Classical.not_not.mp hearlier
        have hall : ∀ N, L ≤ N → ∀ k, out.data.toList.take
            (max (inflate N (data.take earlier)).2.size k) = out.data.toList := by
          intro N hN k
          have hsize := le_size_of_enough hN hended
          refine List.take_of_length_le ?_
          rw [Array.length_toList]
          exact Nat.le_trans hroom (Nat.le_trans hsize (Nat.le_max_left ..))
        rw [hall M hle, hall L (Nat.le_refl L)]

/-- Of a stream that yields more than the windows for `n` octets, these are handed out. -/
theorem take_handed (h : windowLimit n < (inflate M data).2.size) :
    (handed M data).1.take n = (inflate M data).2.data.toList.take n := by
  unfold handed
  rcases hrun : inflate M data with ⟨ending, out⟩
  cases ending with
  | ok _ => rfl
  | error stop =>
    cases stop with
    | cutOff | enough => rfl
    | corrupt unread =>
      rw [hrun] at h
      have hwindows := windowLimit_le_windows h
      have hlimit := le_windowLimit n
      dsimp only
      rw [List.take_take, Nat.min_eq_left]
      exact Nat.le_trans hlimit (Nat.le_trans hwindows (Nat.le_max_right ..))

/-- **The octets that are handed out** do not depend on how many more are wanted, and if there are
    fewer than are wanted, they are all. -/
theorem inPieces_of_le (data : Bytes) (hle : n ≤ m) :
    (inPieces m data).1.take n = (inPieces n data).1.take n ∧
      ((inPieces n data).1.length < n → inPieces m data = inPieces n data) := by
  rw [inPieces_eq_handed, inPieces_eq_handed]
  have hlimits := windowLimit_mono hle
  by_cases hrun : Unlimited (inflate (windowLimit n) data).1
  · rw [handed_of_unlimited hlimits hrun]
    exact ⟨rfl, fun _ => rfl⟩
  · have hended := Classical.not_not.mp hrun
    have hfull : n ≤ (inflate (windowLimit n) data).2.data.toList.length := by
      rw [Array.length_toList]
      exact Nat.le_trans (le_windowLimit n) ((limited_inflate data).full _ hended)
    refine ⟨?_, fun hshort => ?_⟩
    · rcases Nat.eq_or_lt_of_le hlimits with heq | hlt
      · rw [heq]
      · obtain ⟨⟨more, hmore⟩, hsize⟩ := (limited_inflate data).further _ _ hlt hended
        rw [take_handed hsize, handed_of_enough hended, ← hmore,
          List.take_append_of_le_length hfull]
    · rw [handed_of_enough hended] at hshort
      exact absurd hfull (Nat.not_le_of_lt hshort)

/-- **No stream yields octets without end**: some number that is wanted is not reached. -/
theorem exists_length_inPieces_lt (data : Bytes) :
    ∃ size, (inPieces size data).1.length < size := by
  obtain ⟨L, hL⟩ := (limited_inflate data).ends
  refine ⟨max L (inflate L data).2.size + 1, ?_⟩
  have hlimit := le_windowLimit (max L (inflate L data).2.size + 1)
  have hlength := length_handed_le L data
  rw [inPieces_eq_handed, handed_of_unlimited (by omega) hL]
  omega

end Pieces

end SdkConformance.Inflate
