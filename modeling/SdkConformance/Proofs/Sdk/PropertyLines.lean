import Mathlib.Data.List.DropRight
import SdkConformance.Sdk.Registry

/-!
# The lines of a properties text

What a single line of a properties text says, without the reader: a line that is not blank and is
no comment has a key and a value around its first separator, and the key must be a version.

* `trimChars_trimChars`: trimming once is enough;
* `Denotes`, `versionOfKey?_eq_some_iff`: the keys of a version;
* `Properties.Significant`, `Properties.Splits`: the lines that count, and their parts;
* `Properties.Enters`, `Properties.Fault`: the entry that a line stands for, or what is wrong with
  it; `read_eq_ok_none_iff`, `read_eq_ok_some_iff` and `read_eq_error_iff` say that a line is read
  accordingly.
-/

namespace SdkConformance

/-! ## 1. Trimming -/

theorem trimEndChars_eq_rdropWhile (cs : List Char) :
    trimEndChars cs = cs.rdropWhile isWhiteSpace := rfl

/-- What is left of a text does not start with white space. -/
theorem trimStartChars_trimChars (cs : List Char) :
    trimStartChars (trimChars cs) = trimChars cs := by
  obtain ⟨rest, hrest⟩ : trimChars cs <+: trimStartChars cs := List.rdropWhile_prefix _ _
  cases htrim : trimChars cs with
  | nil => rfl
  | cons c r =>
    -- the first character that is left is the first one behind the leading white space
    have hhead := List.head?_dropWhile_not isWhiteSpace cs
    have hc : ¬ isWhiteSpace c = true := by
      rw [htrim] at hrest
      rw [show cs.dropWhile isWhiteSpace = _ from hrest.symm] at hhead
      simpa using hhead
    exact List.dropWhile_cons_of_neg hc

theorem trimChars_trimChars (cs : List Char) : trimChars (trimChars cs) = trimChars cs := by
  rw [trimChars, trimStartChars_trimChars, trimChars, trimEndChars_eq_rdropWhile,
    trimEndChars_eq_rdropWhile, List.rdropWhile_idempotent]

/-- What is left has only white space around it. -/
theorem exists_around_trimChars (cs : List Char) :
    ∃ before after, cs = before ++ trimChars cs ++ after ∧
      (∀ c ∈ before, isWhiteSpace c = true) ∧ (∀ c ∈ after, isWhiteSpace c = true) := by
  refine ⟨cs.takeWhile isWhiteSpace, (trimStartChars cs).rtakeWhile isWhiteSpace, ?_, ?_, ?_⟩
  · rw [trimChars, trimEndChars_eq_rdropWhile, List.append_assoc,
      List.rdropWhile_append_rtakeWhile, trimStartChars, List.takeWhile_append_dropWhile]
  · intro c hc
    exact List.mem_takeWhile_imp hc
  · intro c hc
    exact List.mem_rtakeWhile_imp hc

theorem not_isWhiteSpace_of_head? {cs : List Char} {c : Char}
    (h : (trimChars cs).head? = some c) : ¬ isWhiteSpace c = true := by
  have hhead := List.head?_dropWhile_not isWhiteSpace (trimChars cs)
  rw [show (trimChars cs).dropWhile isWhiteSpace = _ from trimStartChars_trimChars cs, h] at hhead
  simpa using hhead

theorem not_isWhiteSpace_of_getLast? {cs : List Char} {c : Char}
    (h : (trimChars cs).getLast? = some c) : ¬ isWhiteSpace c = true := by
  have hself : (trimChars cs).rdropWhile isWhiteSpace = trimChars cs :=
    List.rdropWhile_idempotent isWhiteSpace (trimStartChars cs)
  obtain ⟨hne, rfl⟩ := List.mem_getLast?_eq_getLast h
  exact List.rdropWhile_eq_self_iff.mp hself hne

/-- What has white space around it and none at its own ends is what is left. -/
theorem trimChars_of_ends {before core after : List Char}
    (hbefore : ∀ c ∈ before, isWhiteSpace c = true) (hafter : ∀ c ∈ after, isWhiteSpace c = true)
    (hhead : ∀ c, core.head? = some c → ¬ isWhiteSpace c = true)
    (hlast : ∀ c, core.getLast? = some c → ¬ isWhiteSpace c = true) :
    trimChars (before ++ core ++ after) = core := by
  have hkeep : core.rdropWhile isWhiteSpace = core :=
    List.rdropWhile_eq_self_iff.mpr fun hne => hlast _ (List.getLast?_eq_some_getLast hne)
  have hend : trimEndChars (core ++ after) = core := by
    rw [trimEndChars, List.reverse_append, List.dropWhile_append_of_pos]
    · exact hkeep
    · intro c hc
      exact hafter c (List.mem_reverse.mp hc)
  cases core with
  | nil =>
    have hall : trimStartChars (before ++ [] ++ after) = [] := by
      rw [List.append_nil]
      exact List.dropWhile_eq_nil_iff.mpr fun c hc =>
        (List.mem_append.mp hc).elim (hbefore c) (hafter c)
    rw [trimChars, hall]
    rfl
  | cons d ds =>
    have hstart : trimStartChars (before ++ d :: ds ++ after) = d :: ds ++ after := by
      rw [trimStartChars, List.append_assoc, List.dropWhile_append_of_pos hbefore, List.cons_append,
        List.dropWhile_cons_of_neg (hhead d rfl)]
    rw [trimChars, hstart, hend]

/-! ## 2. Version keys -/

/-- Characters that are the decimal number of a version: ASCII digits, at least one, with any zeros
    in front. -/
def Denotes (key : List Char) (version : UInt32) : Prop :=
  key ≠ [] ∧ (∀ c ∈ key, '0' ≤ c ∧ c ≤ '9') ∧ Digits.value key = version.toNat

/-- A key stands for the version whose number it is, without the white space around it. -/
theorem versionOfKey?_eq_some_iff {key : String} {v : UInt32} :
    versionOfKey? key = some v ↔ Denotes (trimChars key.toList) v := by
  have hdigits : ∀ c, Digits.isDigit c = true ↔ '0' ≤ c ∧ c ≤ '9' := by
    intro c
    rw [Digits.isDigit, Bool.and_eq_true, decide_eq_true_eq, decide_eq_true_eq]
  unfold versionOfKey?
  constructor
  · intro h
    split at h
    · rename_i n hn
      obtain ⟨hne, hall, hvalue⟩ := Digits.decimal?_eq_some_iff.mp hn
      by_cases hlt : n < UInt32.size
      · rw [if_pos hlt, Option.some.injEq] at h
        subst h
        exact ⟨hne, fun c hc => (hdigits c).mp (hall c hc),
          hvalue.trans (UInt32.toNat_ofNat_of_lt' hlt).symm⟩
      · rw [if_neg hlt] at h
        cases h
    · cases h
  · intro h
    obtain ⟨hne, hall, hvalue⟩ := h
    have hn : Digits.decimal? (trimChars key.toList) = some v.toNat :=
      Digits.decimal?_eq_some_iff.mpr ⟨hne, fun c hc => (hdigits c).mpr (hall c hc), hvalue⟩
    have hlt : v.toNat < UInt32.size := v.toNat_lt
    rw [hn]
    exact (if_pos hlt).trans (congrArg some (UInt32.ofNat_toNat))

/-- A key that was trimmed already. -/
theorem versionOfKey?_ofList_trimChars {cs : List Char} {v : UInt32} :
    versionOfKey? (String.ofList (trimChars cs)) = some v ↔ Denotes (trimChars cs) v := by
  rw [versionOfKey?_eq_some_iff, String.toList_ofList, trimChars_trimChars]

namespace Properties

/-! ## 3. What a line says -/

/-- A line that is neither blank nor a comment. -/
def Significant (line : List Char) : Prop :=
  trimChars line ≠ [] ∧ (trimChars line).head? ≠ some '#' ∧ (trimChars line).head? ≠ some '!'

/-- The characters hold no separator. -/
def Unseparated (cs : List Char) : Prop := ∀ c ∈ cs, c ≠ '=' ∧ c ≠ ':'

/-- The trimmed characters before and behind the first separator of the trimmed line. -/
def Splits (line key value : List Char) : Prop :=
  ∃ before sep after, trimChars line = before ++ sep :: after ∧ (sep = '=' ∨ sep = ':') ∧
    Unseparated before ∧ key = trimChars before ∧ value = trimChars after

/-- The path that a value stands for: a relative one is seen from the base, if there is one. -/
def pathFrom (base : Option String) (value : String) : String :=
  match base with
  | none => value
  | some base => if Path.isAbsolute value then value else Path.join base value

/-- The line stands for the entry. -/
def Enters (base : Option String) (line : List Char) (e : VersionEntry) : Prop :=
  Significant line ∧ ∃ key value, Splits line key value ∧ Denotes key e.version ∧
    e.path = pathFrom base (String.ofList value)

/-- What is wrong with a line, by its number. -/
inductive Fault (number : Nat) (line : List Char) : Error → Prop
  /-- There is no separator. -/
  | noSeparator (hline : Significant line) (hnone : Unseparated (trimChars line)) :
      Fault number line (.malformed (.noSeparator number (String.ofList (trimChars line))))
  /-- The key is no version. -/
  | noVersion {key value : List Char} (hline : Significant line) (hsplit : Splits line key value)
      (hkey : ∀ v, ¬ Denotes key v) :
      Fault number line (.invalidVersionNumber (String.ofList key))

/-! ## 4. Reading a line -/

/-- What a line is read as: an entry, nothing, or an error. -/
def read (base : Option String) (number : Nat) (line : List Char) :
    Except Error (Option VersionEntry) :=
  match Line.ofChars line with
  | .idle => .ok none
  | .broken text => .error (.malformed (.noSeparator number text))
  | .entry key value => (VersionEntry.parse key (resolve base value)).map some

/-- Lines are entered one after the other, up to the first that is an error. -/
theorem entriesFrom_cons (base : Option String) (number : Nat) (done : List VersionEntry)
    (line : List Char) (rest : List (List Char)) :
    entriesFrom base number done (line :: rest) = match read base number line with
      | .error x => .error x
      | .ok none => entriesFrom base (number + 1) done rest
      | .ok (some e) => entriesFrom base (number + 1) (insertEntry e done) rest := by
  rw [entriesFrom, read]
  cases Line.ofChars line with
  | idle => rfl
  | broken text => rfl
  | entry key value =>
    simp only
    cases VersionEntry.parse key (resolve base value) <;> rfl

theorem resolve_eq_pathFrom (base : Option String) (value : String) :
    resolve base value = pathFrom base value := by
  cases base with
  | none => rfl
  | some base =>
    show Path.join base value = if Path.isAbsolute value then value else Path.join base value
    by_cases h : Path.isAbsolute value = true
    · rw [if_pos h, Path.join, if_pos h]
    · rw [if_neg h]

theorem isSeparator_iff {c : Char} : isSeparator c = true ↔ c = '=' ∨ c = ':' := by
  rw [isSeparator, Bool.or_eq_true, beq_iff_eq, beq_iff_eq]

/-- The reader passes the characters that are no separators. -/
theorem unseparated_iff {cs : List Char} :
    Unseparated cs ↔ ∀ c ∈ cs, (!isSeparator c) = true := by
  refine forall₂_congr fun c _ => ?_
  rw [Bool.not_eq_true', ← Bool.not_eq_true, isSeparator_iff, not_or]

theorem ofChars_of_not_significant {line : List Char} (h : ¬ Significant line) :
    Line.ofChars line = .idle := by
  unfold Line.ofChars
  cases htrim : trimChars line with
  | nil => rfl
  | cons c r =>
    have hc : (c == '#' || c == '!') = true := by
      refine Classical.byContradiction fun hne => h ?_
      rw [Bool.or_eq_true, beq_iff_eq, beq_iff_eq, not_or] at hne
      rw [Significant, htrim, List.head?_cons]
      exact ⟨List.cons_ne_nil c r, fun heq => hne.1 (Option.some.inj heq),
        fun heq => hne.2 (Option.some.inj heq)⟩
    exact if_pos hc

theorem ofChars_of_significant {line : List Char} (h : Significant line) :
    Line.ofChars line = match (trimChars line).dropWhile (!isSeparator ·) with
      | [] => .broken (String.ofList (trimChars line))
      | _ :: value =>
        .entry (String.ofList (trimChars ((trimChars line).takeWhile (!isSeparator ·))))
          (String.ofList (trimChars value)) := by
  obtain ⟨hne, hhash, hbang⟩ := h
  unfold Line.ofChars
  cases htrim : trimChars line with
  | nil => exact absurd htrim hne
  | cons c r =>
    rw [htrim, List.head?_cons] at hhash hbang
    have hc : ¬ (c == '#' || c == '!') = true := by
      rw [Bool.or_eq_true, beq_iff_eq, beq_iff_eq]
      rintro (rfl | rfl)
      · exact hhash rfl
      · exact hbang rfl
    exact if_neg hc

theorem ofChars_of_unseparated {line : List Char} (h : Significant line)
    (hnone : Unseparated (trimChars line)) :
    Line.ofChars line = .broken (String.ofList (trimChars line)) := by
  have hdrop : (trimChars line).dropWhile (!isSeparator ·) = [] :=
    List.dropWhile_eq_nil_iff.mpr (unseparated_iff.mp hnone)
  rw [ofChars_of_significant h, hdrop]

theorem ofChars_of_splits {line key value : List Char} (h : Significant line)
    (hsplit : Splits line key value) :
    Line.ofChars line = .entry (String.ofList key) (String.ofList value) := by
  obtain ⟨before, sep, after, hline, hsep, hbefore, rfl, rfl⟩ := hsplit
  have hpass := unseparated_iff.mp hbefore
  have hstop : ¬ (!isSeparator sep) = true := by
    rw [isSeparator_iff.mpr hsep]
    exact Bool.false_ne_true
  have hdrop : (trimChars line).dropWhile (!isSeparator ·) = sep :: after := by
    rw [hline, List.dropWhile_append_of_pos hpass,
      List.dropWhile_cons_of_neg (p := (!isSeparator ·)) hstop]
  have htake : (trimChars line).takeWhile (!isSeparator ·) = before := by
    rw [hline, List.takeWhile_append_of_pos hpass,
      List.takeWhile_cons_of_neg (p := (!isSeparator ·)) hstop, List.append_nil]
  rw [ofChars_of_significant h, hdrop, htake]

/-- A line without a key and a value has no separator. -/
theorem unseparated_or_splits (line : List Char) :
    Unseparated (trimChars line) ∨ ∃ key value, Splits line key value := by
  cases hdrop : (trimChars line).dropWhile (!isSeparator ·) with
  | nil => exact Or.inl (unseparated_iff.mpr (List.dropWhile_eq_nil_iff.mp hdrop))
  | cons sep after =>
    have hhead := List.head?_dropWhile_not (!isSeparator ·) (trimChars line)
    rw [hdrop] at hhead
    have hsep : isSeparator sep = true := by simpa using hhead
    have hline : trimChars line = (trimChars line).takeWhile (!isSeparator ·) ++ sep :: after := by
      rw [← hdrop, List.takeWhile_append_dropWhile]
    exact Or.inr ⟨_, _, _, sep, after, hline, isSeparator_iff.mp hsep,
      unseparated_iff.mpr fun c hc => List.mem_takeWhile_imp (p := (!isSeparator ·)) hc, rfl, rfl⟩

variable {base : Option String} {number : Nat} {line : List Char} {e : VersionEntry} {x : Error}

theorem read_of_not_significant (h : ¬ Significant line) : read base number line = .ok none := by
  rw [read, ofChars_of_not_significant h]

/-- A line with a key and a value is read as its entry, if the key is a version. -/
theorem read_of_splits {key value : List Char} (h : Significant line)
    (hsplit : Splits line key value) :
    read base number line = match versionOfKey? (String.ofList key) with
      | some v => .ok (some ⟨v, pathFrom base (String.ofList value)⟩)
      | none => .error (.invalidVersionNumber (String.ofList key)) := by
  rw [read, ofChars_of_splits h hsplit]
  show (VersionEntry.parse _ _).map some = _
  rw [VersionEntry.parse, resolve_eq_pathFrom]
  cases versionOfKey? (String.ofList key) <;> rfl

/-- The key of a line was trimmed already. -/
theorem Splits.versionOfKey?_eq_some_iff {key value : List Char} (h : Splits line key value)
    {v : UInt32} : versionOfKey? (String.ofList key) = some v ↔ Denotes key v := by
  obtain ⟨before, sep, after, -, -, -, rfl, -⟩ := h
  exact versionOfKey?_ofList_trimChars

theorem read_of_enters (h : Enters base line e) : read base number line = .ok (some e) := by
  obtain ⟨hline, key, value, hsplit, hkey, hpath⟩ := h
  rw [read_of_splits hline hsplit, hsplit.versionOfKey?_eq_some_iff.mpr hkey]
  show Except.ok (some (VersionEntry.mk e.version _)) = _
  rw [← hpath]

theorem read_of_fault (h : Fault number line x) : read base number line = .error x := by
  cases h with
  | noSeparator hline hnone => rw [read, ofChars_of_unseparated hline hnone]
  | @noVersion key value hline hsplit hkey =>
    have hnone : versionOfKey? (String.ofList key) = none :=
      Option.eq_none_iff_forall_ne_some.mpr fun v hv =>
        hkey v (hsplit.versionOfKey?_eq_some_iff.mp hv)
    rw [read_of_splits hline hsplit, hnone]

/-- A line that counts stands for an entry, or something is wrong with it. -/
theorem enters_or_fault (base : Option String) (number : Nat) (h : Significant line) :
    (∃ e, Enters base line e) ∨ ∃ x, Fault number line x := by
  rcases unseparated_or_splits line with hnone | ⟨key, value, hsplit⟩
  · exact Or.inr ⟨_, .noSeparator h hnone⟩
  · cases hkey : versionOfKey? (String.ofList key) with
    | some v =>
      exact Or.inl ⟨⟨v, _⟩, h, key, value, hsplit, hsplit.versionOfKey?_eq_some_iff.mp hkey, rfl⟩
    | none =>
      refine Or.inr ⟨_, .noVersion h hsplit fun v hv => ?_⟩
      rw [hsplit.versionOfKey?_eq_some_iff.mpr hv] at hkey
      cases hkey

theorem Fault.significant (h : Fault number line x) : Significant line := by
  cases h <;> assumption

/-- A line that is not skipped counts. -/
theorem significant_of_read (h : read base number line ≠ .ok none) : Significant line :=
  Classical.byContradiction fun hnot => h (read_of_not_significant hnot)

/-- **A line is skipped** exactly if it does not count. -/
theorem read_eq_ok_none_iff : read base number line = .ok none ↔ ¬ Significant line := by
  refine ⟨fun h hline => ?_, read_of_not_significant⟩
  rcases enters_or_fault base number hline with ⟨e, he⟩ | ⟨x, hx⟩
  · rw [read_of_enters he] at h
    cases h
  · rw [read_of_fault hx] at h
    cases h

/-- **A line is read as the entry that it stands for.** -/
theorem read_eq_ok_some_iff : read base number line = .ok (some e) ↔ Enters base line e := by
  refine ⟨fun h => ?_, read_of_enters⟩
  have hline : Significant line := significant_of_read fun hskip => (nomatch h.symm.trans hskip)
  rcases enters_or_fault base number hline with ⟨e', he⟩ | ⟨x, hx⟩
  · rw [read_of_enters he] at h
    cases h
    exact he
  · rw [read_of_fault hx] at h
    cases h

/-- **A line is an error** exactly if something is wrong with it, and that is the error. -/
theorem read_eq_error_iff : read base number line = .error x ↔ Fault number line x := by
  refine ⟨fun h => ?_, read_of_fault⟩
  have hline : Significant line := significant_of_read fun hskip => (nomatch h.symm.trans hskip)
  rcases enters_or_fault base number hline with ⟨e', he⟩ | ⟨x', hx⟩
  · rw [read_of_enters he] at h
    cases h
  · rw [read_of_fault hx] at h
    cases h
    exact hx

end Properties
end SdkConformance
