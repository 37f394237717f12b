import SdkConformance.Proofs.Sdk.PairRegistries

/-!
# The decimal value of a key

A key is read in two tests and a loop: what is left without the white space at its ends must be
ASCII digits, at least one, and the loop over the digits, which multiplies by ten and adds in
32-bit words, must not overflow.

* `Stripped`, `stripped_iff`: what is left of a key without the white space at its ends;
* `Word.timesTen?`, `Word.plus?`, `Word.accumulate?`: the loop, where an overflow stops it;
  `accumulate?_eq` says that it stops for the values from `2 ^ 32` on and for no other digits;
* `VersionEntry.parse_of_stripped`: a key is read by the loop;
* `VersionEntry.parse_decimal`: the keys that have a version, their versions, and the error of all
  others.
-/

namespace SdkConformance

/-! ## 1. What is left of a key -/

/-- The characters of a key without the white space at its ends. -/
def Stripped (key : String) (core : List Char) : Prop :=
  (∀ c, core.head? = some c ∨ core.getLast? = some c → ¬ isWhiteSpace c = true) ∧
    ∃ before after, key.toList = before ++ core ++ after ∧
      (∀ c ∈ before, isWhiteSpace c = true) ∧ (∀ c ∈ after, isWhiteSpace c = true)

/-- There is one thing that is left of a key, and it is what trimming leaves. -/
theorem stripped_iff {key : String} {core : List Char} :
    Stripped key core ↔ core = trimChars key.toList := by
  constructor
  · intro h
    obtain ⟨hends, before, after, hkey, hbefore, hafter⟩ := h
    rw [hkey, trimChars_of_ends hbefore hafter (fun c hc => hends c (Or.inl hc))
      fun c hc => hends c (Or.inr hc)]
  · intro h
    subst h
    refine ⟨?_, exists_around_trimChars key.toList⟩
    rintro c (hc | hc)
    · exact not_isWhiteSpace_of_head? hc
    · exact not_isWhiteSpace_of_getLast? hc

/-! ## 2. The loop over the digits -/

/-- The characters are ASCII digits, at least one. -/
def Decimal (cs : List Char) : Prop := cs ≠ [] ∧ ∀ c ∈ cs, '0' ≤ c ∧ c ≤ '9'

namespace Word

/-- Ten times a word, unless that overflows. -/
def timesTen? (w : UInt32) : Option UInt32 := if 429496729 < w then none else some (w * 10)

/-- The sum of two words, unless it overflows, which leaves less than one of them. -/
def plus? (v w : UInt32) : Option UInt32 := if v + w < v then none else some (v + w)

/-- Goes on with digits behind what the digits before them come to. -/
def accumulate? (w : UInt32) : List Char → Option UInt32
  | [] => some w
  | c :: cs =>
    match timesTen? w with
    | none => none
    | some tens =>
      match plus? tens (c.val - '0'.val) with
      | none => none
      | some next => accumulate? next cs

theorem timesTen?_eq (w : UInt32) :
    timesTen? w =
      if 10 * w.toNat < 4294967296 then some (UInt32.ofNat (10 * w.toNat)) else none := by
  have hlt : 429496729 < w ↔ 429496729 < w.toNat := Iff.rfl
  unfold timesTen?
  by_cases h : 10 * w.toNat < 4294967296
  · have hmul : w * 10 = UInt32.ofNat (10 * w.toNat) := by
      rw [UInt32.ofNat_mul, UInt32.ofNat_toNat, UInt32.mul_comm]
      rfl
    rw [if_neg (mt hlt.mp (by omega)), if_pos h, hmul]
  · rw [if_pos (hlt.mpr (by omega)), if_neg h]

theorem plus?_eq (v w : UInt32) :
    plus? v w =
      if v.toNat + w.toNat < 4294967296 then some (UInt32.ofNat (v.toNat + w.toNat)) else none := by
  have hv := v.toNat_lt
  have hw := w.toNat_lt
  have hlt : v + w < v ↔ (v.toNat + w.toNat) % 4294967296 < v.toNat := by
    rw [← UInt32.toNat_add]
    exact UInt32.lt_iff_toNat_lt
  unfold plus?
  by_cases h : v.toNat + w.toNat < 4294967296
  · rw [if_neg (mt hlt.mp (by omega)), if_pos h, UInt32.ofNat_add, UInt32.ofNat_toNat,
      UInt32.ofNat_toNat]
  · rw [if_pos (hlt.mpr (by omega)), if_neg h]

/-- More digits never make a value smaller. -/
theorem le_ofDigitChars (cs : List Char) (n : Nat) : n ≤ Nat.ofDigitChars 10 cs n := by
  induction cs generalizing n with
  | nil => exact Nat.le_refl n
  | cons c cs ih =>
    rw [Nat.ofDigitChars_cons]
    have hnext := ih (10 * n + (c.toNat - '0'.toNat))
    omega

/-- What one digit does: it comes to the next value, or that one does not fit into a word. -/
theorem accumulate?_cons {w : UInt32} {c : Char} (cs : List Char) (hc : '0' ≤ c ∧ c ≤ '9') :
    accumulate? w (c :: cs) =
      if 10 * w.toNat + (c.toNat - '0'.toNat) < 4294967296
      then accumulate? (UInt32.ofNat (10 * w.toNat + (c.toNat - '0'.toNat))) cs else none := by
  have hdigit : (c.val - '0'.val).toNat = c.toNat - '0'.toNat := UInt32.toNat_sub_of_le _ _ hc.1
  rw [accumulate?, timesTen?_eq]
  by_cases htens : 10 * w.toNat < 4294967296
  · rw [if_pos htens]
    dsimp only
    rw [plus?_eq, hdigit, UInt32.toNat_ofNat_of_lt' htens]
    by_cases hnext : 10 * w.toNat + (c.toNat - '0'.toNat) < 4294967296
    · rw [if_pos hnext, if_pos hnext]
    · rw [if_neg hnext, if_neg hnext]
  · rw [if_neg htens, if_neg (by omega)]

/-- The loop comes to the value of the digits, and it stops exactly if that does not fit into a
    word: once a value has become too large, the digits behind it leave it so. -/
theorem accumulate?_eq {cs : List Char} (h : ∀ c ∈ cs, '0' ≤ c ∧ c ≤ '9') (w : UInt32) :
    accumulate? w cs =
      if Nat.ofDigitChars 10 cs w.toNat < 4294967296
      then some (UInt32.ofNat (Nat.ofDigitChars 10 cs w.toNat)) else none := by
  induction cs generalizing w with
  | nil =>
    rw [accumulate?, Nat.ofDigitChars_nil, if_pos w.toNat_lt, UInt32.ofNat_toNat]
  | cons c cs ih =>
    obtain ⟨hc, hcs⟩ := List.forall_mem_cons.mp h
    rw [accumulate?_cons cs hc, Nat.ofDigitChars_cons]
    by_cases hnext : 10 * w.toNat + (c.toNat - '0'.toNat) < 4294967296
    · rw [if_pos hnext, ih hcs, UInt32.toNat_ofNat_of_lt' hnext]
    · have hle := le_ofDigitChars cs (10 * w.toNat + (c.toNat - '0'.toNat))
      rw [if_neg hnext, if_neg (by omega)]

end Word

/-! ## 3. The keys of a version -/

theorem value_eq_ofDigitChars (cs : List Char) : Digits.value cs = Nat.ofDigitChars 10 cs 0 := by
  rw [Digits.value, Nat.ofDigitChars_eq_foldl]
  refine List.foldl_ext _ _ _ fun n c _ => ?_
  rw [Nat.mul_comm]

/-- A version is denoted exactly by digits with its value. -/
theorem denotes_iff {core : List Char} {v : UInt32} :
    Denotes core v ↔ Decimal core ∧ Nat.ofDigitChars 10 core 0 = v.toNat := by
  rw [Denotes, Decimal, value_eq_ofDigitChars, and_assoc]

/-- The digits of a number with zeros in front. -/
theorem decimal_replicate_append (zeros n : Nat) :
    Decimal (List.replicate zeros '0' ++ Nat.toDigits 10 n) := by
  refine ⟨List.append_ne_nil_of_right_ne_nil _ Nat.toDigits_ne_nil, fun c hc => ?_⟩
  rcases List.mem_append.mp hc with hc | hc
  · rw [List.eq_of_mem_replicate hc]
    decide
  · have hdigit := Nat.isDigit_of_mem_toDigits (by decide) (by decide) hc
    rwa [Char.isDigit, Bool.and_eq_true, decide_eq_true_eq, decide_eq_true_eq] at hdigit

/-- Zeros in front do not count. -/
theorem ofDigitChars_replicate_append (zeros n : Nat) :
    Nat.ofDigitChars 10 (List.replicate zeros '0' ++ Nat.toDigits 10 n) 0 = n := by
  rw [Nat.ofDigitChars_append, Nat.ofDigitChars_replicate_zero, Nat.mul_zero,
    Nat.ofDigitChars_ten_toDigits]

namespace VersionEntry

/-- Digits are read by the loop, from zero on. -/
theorem parse_of_stripped {key path : String} {core : List Char} (h : Stripped key core)
    (hcore : Decimal core) :
    parse key path = match Word.accumulate? 0 core with
      | some v => .ok ⟨v, path⟩
      | none => .error (.invalidVersionNumber key) := by
  have htrim := stripped_iff.mp h
  rw [Word.accumulate?_eq hcore.2]
  by_cases hlt : Nat.ofDigitChars 10 core 0 < 4294967296
  · rw [UInt32.toNat_zero, if_pos hlt]
    refine parse_of_keyOf (keyOf_iff.mpr (htrim ▸ denotes_iff.mpr ⟨hcore, ?_⟩))
    exact (UInt32.toNat_ofNat_of_lt' hlt).symm
  · rw [UInt32.toNat_zero, if_neg hlt]
    refine parse_of_not_keyOf fun v hv => ?_
    have hvalue := (denotes_iff.mp (htrim ▸ keyOf_iff.mp hv)).2
    have := v.toNat_lt
    omega

/-- The loop comes to the version of a key that is read. -/
theorem accumulate?_of_parse {key path : String} {core : List Char} {e : VersionEntry}
    (h : Stripped key core) (hcore : Decimal core) (he : parse key path = .ok e) :
    Word.accumulate? 0 core = some e.version := by
  rw [parse_of_stripped h hcore] at he
  cases hrun : Word.accumulate? 0 core with
  | none =>
    rw [hrun] at he
    cases he
  | some w =>
    rw [hrun] at he
    cases he
    rfl

/-- A key is read exactly if the characters without the white space at its ends are ASCII digits
    whose value fits into a word. The version has that value, which the loop over the digits comes
    to, and the path is as given; every other key is reported as handed over. So the decimal
    number of a version is read back, with any white space around it and any zeros in front. -/
theorem parse_decimal (key path : String) :
    (∃ core, (∀ left, Stripped key left ↔ left = core) ∧
      ((∃ e, parse key path = .ok e) ↔
        Decimal core ∧ Nat.ofDigitChars 10 core 0 ≤ 4294967295) ∧
      (∀ e, parse key path = .ok e →
        e.version.toNat = Nat.ofDigitChars 10 core 0 ∧ e.path = path ∧
          Word.accumulate? 0 core = some e.version) ∧
      (core = [] ∨ (∃ c ∈ core, ¬ ('0' ≤ c ∧ c ≤ '9')) ∨
          4294967296 ≤ Nat.ofDigitChars 10 core 0 →
        parse key path = .error (.invalidVersionNumber key))) ∧
    ∀ before zeros after (v : UInt32),
      (∀ c ∈ before, isWhiteSpace c = true) → (∀ c ∈ after, isWhiteSpace c = true) →
      key.toList = before ++ (List.replicate zeros '0' ++ Nat.toDigits 10 v.toNat) ++ after →
      parse key path = .ok ⟨v, path⟩ := by
  have hkeyOf : ∀ v, KeyOf key v ↔ Decimal (trimChars key.toList) ∧
      Nat.ofDigitChars 10 (trimChars key.toList) 0 = v.toNat :=
    fun v => keyOf_iff.trans denotes_iff
  refine ⟨⟨trimChars key.toList, fun left => stripped_iff, ?_, fun e he => ?_, fun h => ?_⟩, ?_⟩
  · rw [exists_parse_iff]
    constructor
    · intro h
      obtain ⟨v, hv⟩ := h
      obtain ⟨hdecimal, hvalue⟩ := (hkeyOf v).mp hv
      have := v.toNat_lt
      exact ⟨hdecimal, by omega⟩
    · intro h
      obtain ⟨hdecimal, hle⟩ := h
      have hlt : Nat.ofDigitChars 10 (trimChars key.toList) 0 < 4294967296 := by omega
      exact ⟨_, (hkeyOf _).mpr ⟨hdecimal, (UInt32.toNat_ofNat_of_lt' hlt).symm⟩⟩
  · obtain ⟨v, hv⟩ := exists_parse_iff.mp ⟨e, he⟩
    obtain ⟨hdecimal, hvalue⟩ := (hkeyOf v).mp hv
    have hloop := accumulate?_of_parse (stripped_iff.mpr rfl) hdecimal he
    rw [parse_of_keyOf hv] at he
    cases he
    exact ⟨hvalue.symm, rfl, hloop⟩
  · refine parse_of_not_keyOf fun v hv => ?_
    obtain ⟨⟨hne, hdigits⟩, hvalue⟩ := (hkeyOf v).mp hv
    have hlt := v.toNat_lt
    rcases h with hempty | ⟨c, hc, hnone⟩ | hle
    · exact hne hempty
    · exact hnone (hdigits c hc)
    · omega
  · intro before zeros after v hbefore hafter hkey
    exact parse_of_keyOf ⟨before, _, after, hkey, hbefore, hafter,
      denotes_iff.mpr ⟨decimal_replicate_append zeros v.toNat,
        ofDigitChars_replicate_append zeros v.toNat⟩⟩

/-- Zeros and white space do not count, one more than the largest word is too much, and a sign is
    no digit. -/
theorem parse_spaced_overflowing_signed :
    parse "\u2003 0028\n" "a.jar" = .ok ⟨28, "a.jar"⟩ ∧
    parse "0004294967295" "a.jar" = .ok ⟨4294967295, "a.jar"⟩ ∧
    parse "4294967296" "a.jar" = .error (.invalidVersionNumber "4294967296") ∧
    parse " +1 " "a.jar" = .error (.invalidVersionNumber " +1 ") := by
  refine ⟨?_, ?_, ?_, ?_⟩
  · exact (parse_decimal _ _).2 ['\u2003', ' '] 2 ['\n'] 28 (List.all_eq_true.mp rfl)
      (List.all_eq_true.mp rfl) rfl
  · exact (parse_decimal _ _).2 [] 3 [] 4294967295 nofun nofun rfl
  · obtain ⟨⟨core, hcore, -, -, herror⟩, -⟩ := parse_decimal "4294967296" "a.jar"
    have hdigits := (hcore "4294967296".toList).mp (stripped_iff.mpr rfl)
    subst hdigits
    exact herror (Or.inr (Or.inr (by decide)))
  · obtain ⟨⟨core, hcore, -, -, herror⟩, -⟩ := parse_decimal " +1 " "a.jar"
    have hsigned := (hcore ['+', '1']).mp (stripped_iff.mpr rfl)
    subst hsigned
    exact herror (Or.inr (Or.inl ⟨'+', by decide, by decide⟩))

end VersionEntry

end SdkConformance
