import SdkConformance.Proofs.Zip.InflateLimits

/-!
# The rounds of inflating

Blocks, the symbols of a block and the lengths of its codes are read in rounds, of which there is a
greatest number. It never ends a run: a symbol takes a bit at least, a block takes three, and every
round over lengths adds one. So a run is the same with any more rounds.

* `size_block_le`: a block leaves no more bits than there were;
* `codeLengths_eq_of_le`, `symbols_eq_of_size_lt`, `blocks_eq_of_size_lt`: what is read does not
  depend on the rounds, if there is one more than there are bits;
* `blocks_eq_inflate`: so it is for a whole stream.
-/

namespace SdkConformance.Inflate

/-! ## 1. What blocks leave -/

theorem size_stored_le {limit : Nat} {s s' : BitSource} {out : ByteArray}
    (h : (stored limit s out).1 = .ok s') : s'.size ≤ s.size := by
  unfold stored at h
  split at h
  · rename_i a b c d rest haligned
    have hsize : s.size = 8 * (rest.length + 4) + s.left := by
      show 8 * s.aligned.length + s.left = _
      rw [haligned]
      rfl
    dsimp only at h
    split at h
    · cases h
    split at h
    · cases h
    split at h
    · cases h
      show 8 * (rest.drop _).length + 0 ≤ s.size
      rw [List.length_drop]
      omega
    · cases h
  · cases h

theorem size_symbols_le {limit fuel : Nat} {literals distances : HuffmanCode} {s s' : BitSource}
    {out : ByteArray} (h : (symbols limit literals distances fuel s out).1 = .ok s') :
    s'.size ≤ s.size := by
  induction fuel generalizing s out with
  | zero => cases h
  | succ fuel ih =>
    rw [symbols] at h
    cases hsymbol : literals.decode s with
    | error stop =>
      rw [hsymbol] at h
      cases h
    | ok r =>
      have hlt := size_decode_lt hsymbol
      simp only [hsymbol] at h
      split at h
      · split at h
        · cases h
        · have hle := ih h
          omega
      split at h
      · cases h
        omega
      cases hcopy : reference distances r.1 r.2 with
      | error stop =>
        rw [hcopy] at h
        cases h
      | ok read =>
        have hreference := (reads_reference distances r.1 r.2).size_le read hcopy
        simp only [hcopy] at h
        split at h
        · cases h
        · exact Nat.le_trans (ih h) (Nat.le_trans hreference (Nat.le_of_lt hlt))

theorem size_block_le {limit fuel kind : Nat} {s s' : BitSource} {out : ByteArray}
    (h : (block limit fuel kind s out).1 = .ok s') : s'.size ≤ s.size := by
  unfold block at h
  split at h
  · exact size_stored_le h
  · cases hcodes : blockCodes kind s with
    | error stop =>
      rw [hcodes] at h
      cases h
    | ok r =>
      simp only [hcodes] at h
      exact Nat.le_trans (size_symbols_le h) ((reads_blockCodes kind s).size_le r hcodes)

/-! ## 2. Rounds that are not needed -/

section Rounds

variable {bitCount bitCount' fuel fuel' : Nat} {s : BitSource}

/-- Where no length is missing, there is no round. -/
theorem codeLengths_of_le {total : Nat} (code : HuffmanCode) {done : List Nat}
    (h : total ≤ done.length) :
    codeLengths total code fuel s done =
      if done.length = total then .ok (done.reverse, s) else .error (.corrupt s.unread) := by
  unfold codeLengths
  split
  · rfl
  · exact if_pos (by omega)

/-- **The lengths of the codes of a block** are read in as many rounds as there are lengths missing,
    or in less. -/
theorem codeLengths_eq_of_le (total : Nat) (code : HuffmanCode) {done : List Nat}
    (h : total ≤ done.length + fuel) (h' : total ≤ done.length + fuel') :
    codeLengths total code fuel s done = codeLengths total code fuel' s done := by
  induction fuel generalizing fuel' s done with
  | zero => rw [codeLengths_of_le code h, codeLengths_of_le code h]
  | succ fuel ih =>
    rcases Nat.lt_or_ge done.length total with hlt | hle
    · obtain ⟨fuel', rfl⟩ : ∃ n, fuel' = n + 1 := ⟨fuel' - 1, by omega⟩
      -- a round adds one length, or three or eleven of them and more
      have hnext : ∀ s (added : List Nat), 0 < added.length →
          codeLengths total code fuel s (added ++ done) =
            codeLengths total code fuel' s (added ++ done) := by
        intro s added hadded
        refine ih ?_ ?_ <;> rw [List.length_append] <;> omega
      have hrepeated : ∀ s (least n length : Nat), 0 < least →
          codeLengths total code fuel s (List.replicate (least + n) length ++ done) =
            codeLengths total code fuel' s (List.replicate (least + n) length ++ done) := by
        intro s least n length hleast
        exact hnext s _ (by rw [List.length_replicate]; omega)
      unfold codeLengths
      rw [if_neg (by omega), if_neg (by omega), if_neg (by omega), if_neg (by omega)]
      refine bind_congr fun r => ?_
      dsimp only
      split
      · exact hnext r.2 [r.1] Nat.one_pos
      split
      · split
        · rfl
        · exact bind_congr fun r => hrepeated r.2 3 r.1 _ (by decide)
      split
      · exact bind_congr fun r => hrepeated r.2 3 r.1 _ (by decide)
      · exact bind_congr fun r => hrepeated r.2 11 r.1 _ (by decide)
    · rw [codeLengths_of_le code hle, codeLengths_of_le code hle]

/-- **The symbols of a block** are read in one round more than there are bits, or in less. -/
theorem symbols_eq_of_size_lt (limit : Nat) (literals distances : HuffmanCode) (out : ByteArray)
    (h : s.size < fuel) (h' : s.size < fuel') :
    symbols limit literals distances fuel s out =
      symbols limit literals distances fuel' s out := by
  induction fuel generalizing fuel' s out with
  | zero => exact absurd h (Nat.not_lt_zero _)
  | succ fuel ih =>
    obtain ⟨fuel', rfl⟩ := Nat.exists_eq_add_one_of_ne_zero (Nat.ne_zero_of_lt h')
    rw [symbols, symbols]
    cases hsymbol : literals.decode s with
    | error stop => rfl
    | ok r =>
      obtain ⟨symbol, s₁⟩ := r
      have hlt : s₁.size < s.size := size_decode_lt hsymbol
      have hnext : ∀ s₂ : BitSource, s₂.size ≤ s₁.size → ∀ out,
          symbols limit literals distances fuel s₂ out =
            symbols limit literals distances fuel' s₂ out :=
        fun s₂ hle out => ih out (by omega) (by omega)
      dsimp only
      rw [hnext s₁ (Nat.le_refl _)]
      cases hcopy : reference distances symbol s₁ with
      | error stop => rfl
      | ok r =>
        dsimp only
        rw [hnext r.2.2 ((reads_reference distances symbol s₁).size_le r hcopy)]

theorem block_eq_of_size_lt (limit kind : Nat) (out : ByteArray) (h : s.size < fuel)
    (h' : s.size < fuel') : block limit fuel kind s out = block limit fuel' kind s out := by
  unfold block
  split
  · rfl
  · cases hcodes : blockCodes kind s with
    | error stop => rfl
    | ok r =>
      have hle := (reads_blockCodes kind s).size_le r hcodes
      exact symbols_eq_of_size_lt _ _ _ _ (Nat.lt_of_le_of_lt hle h) (Nat.lt_of_le_of_lt hle h')

/-- **Blocks** are read in one round more than there are bits, or in less, and so are the symbols
    of each. -/
theorem blocks_eq_of_size_lt (limit : Nat) (out : ByteArray) (hbits : s.size ≤ bitCount)
    (hbits' : s.size ≤ bitCount') (h : s.size < fuel) (h' : s.size < fuel') :
    blocks limit bitCount fuel s out = blocks limit bitCount' fuel' s out := by
  induction fuel generalizing fuel' s out with
  | zero => exact absurd h (Nat.not_lt_zero _)
  | succ fuel ih =>
    obtain ⟨fuel', rfl⟩ := Nat.exists_eq_add_one_of_ne_zero (Nat.ne_zero_of_lt h')
    rw [blocks, blocks]
    cases hheader : s.bits? 3 with
    | none => rfl
    | some r =>
      obtain ⟨header, s₁⟩ := r
      have hsize := BitSource.size_bits? hheader
      have hblock := block_eq_of_size_lt limit (header / 2) out
        (show s₁.size < bitCount + 1 by omega) (show s₁.size < bitCount' + 1 by omega)
      dsimp only
      rw [hblock]
      rcases hrun : block limit (bitCount' + 1) (header / 2) s₁ out with ⟨stop | s₂, out'⟩
      · rfl
      · have hle : s₂.size ≤ s₁.size := size_block_le (congrArg Prod.fst hrun)
        have hnext : blocks limit bitCount fuel s₂ out' = blocks limit bitCount' fuel' s₂ out' :=
          ih out' (by omega) (by omega) (by omega) (by omega)
        dsimp only
        rw [hnext]

end Rounds

/-- **No stream ends for want of rounds**: with any more of them, for its blocks and for the symbols
    of each, it yields the same octets and ends in the same way. -/
theorem blocks_eq_inflate (limit : Nat) (data : Bytes) {bitCount fuel : Nat}
    (hbits : 8 * data.length ≤ bitCount) (hfuel : 8 * data.length < fuel) :
    blocks limit bitCount fuel (.ofBytes data) .empty = inflate limit data :=
  blocks_eq_of_size_lt limit .empty hbits (Nat.le_refl _) hfuel (Nat.lt_succ_self _)

end SdkConformance.Inflate
