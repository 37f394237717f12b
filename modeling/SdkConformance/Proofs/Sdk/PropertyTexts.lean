import Mathlib.Data.List.Induction
import SdkConformance.Proofs.Sdk.PropertyLines
import SdkConformance.Proofs.Sdk.RegistryVisits

/-!
# The registry of a properties text

A properties text is read line by line into entries in ascending order, where a later line replaces
an earlier one for the same version, and a registry is built of the entries.

* `mem_insertEntry_iff`, `pairwise_insertEntry`: what one more entry changes;
* `Properties.LastEntry`: the entry of the last line for a version; `Properties.Records` is the
  invariant of reading, `Records.enter` and `Records.skip` are its steps, `Records.entriesFrom` the
  run;
* `Properties.FirstFault`, `entriesFrom_eq_error_iff`: reading fails with the first line that is
  at fault;
* `ofProperties_of_lines`: the registry of a text, or the error, from its lines alone.
-/

namespace SdkConformance

/-! ## 1. Entries in ascending order -/

section Entries

variable {e x : VersionEntry} {es : List VersionEntry}

theorem mem_insertEntry_iff (h : es.Pairwise fun a b => a.version < b.version) :
    x ∈ insertEntry e es ↔ x = e ∨ x ∈ es ∧ x.version ≠ e.version := by
  induction es with
  | nil => simp [insertEntry]
  | cons y ys ih =>
    obtain ⟨hy, hys⟩ := List.pairwise_cons.mp h
    rw [insertEntry, List.mem_cons]
    by_cases hlt : e.version < y.version
    · -- all the others have higher versions
      rw [if_pos hlt, List.mem_cons, List.mem_cons]
      refine or_congr_right (and_iff_left_of_imp ?_).symm
      rintro (rfl | hx)
      · exact (UInt32.ne_of_lt hlt).symm
      · exact (UInt32.ne_of_lt (UInt32.lt_trans hlt (hy x hx))).symm
    · rw [if_neg hlt]
      by_cases hgt : y.version < e.version
      · rw [if_pos hgt, List.mem_cons, ih hys, or_left_comm, or_and_right]
        refine or_congr_right (or_congr_left (and_iff_left_of_imp ?_).symm)
        rintro rfl
        exact UInt32.ne_of_lt hgt
      · have heq : y.version = e.version :=
          UInt32.le_antisymm (UInt32.not_lt.mp hlt) (UInt32.not_lt.mp hgt)
        rw [if_neg hgt, List.mem_cons, or_and_right]
        refine or_congr_right ⟨fun hx => Or.inr ⟨hx, ?_⟩, ?_⟩
        · exact (UInt32.ne_of_lt (heq ▸ hy x hx)).symm
        · rintro (⟨rfl, hne⟩ | ⟨hx, -⟩)
          · exact absurd heq hne
          · exact hx

theorem pairwise_insertEntry (h : es.Pairwise fun a b => a.version < b.version) :
    (insertEntry e es).Pairwise fun a b => a.version < b.version := by
  induction es with
  | nil => exact List.pairwise_singleton _ e
  | cons y ys ih =>
    obtain ⟨hy, hys⟩ := List.pairwise_cons.mp h
    rw [insertEntry]
    by_cases hlt : e.version < y.version
    · rw [if_pos hlt]
      refine List.pairwise_cons.mpr ⟨?_, h⟩
      rw [List.forall_mem_cons]
      exact ⟨hlt, fun x hx => UInt32.lt_trans hlt (hy x hx)⟩
    · rw [if_neg hlt]
      by_cases hgt : y.version < e.version
      · rw [if_pos hgt]
        refine List.pairwise_cons.mpr ⟨fun x hx => ?_, ih hys⟩
        rcases (mem_insertEntry_iff hys).mp hx with rfl | ⟨hx, -⟩
        · exact hgt
        · exact hy x hx
      · have heq : y.version = e.version :=
          UInt32.le_antisymm (UInt32.not_lt.mp hlt) (UInt32.not_lt.mp hgt)
        rw [if_neg hgt]
        exact List.pairwise_cons.mpr ⟨fun x hx => heq ▸ hy x hx, hys⟩

end Entries

namespace Properties

/-! ## 2. The last line for a version -/

/-- The entry is that of a line behind which no line stands for the same version. -/
def LastEntry (base : Option String) (lines : List (List Char)) (e : VersionEntry) : Prop :=
  ∃ before line after, lines = before ++ line :: after ∧ Enters base line e ∧
    ∀ later ∈ after, ∀ e', Enters base later e' → e'.version ≠ e.version

section Steps

variable {base : Option String} {lines : List (List Char)} {line : List Char} {e x : VersionEntry}
  {es : List VersionEntry} {number : Nat}

theorem Enters.unique (h : Enters base line e) (h' : Enters base line x) : e = x := by
  have hread : read base 1 line = .ok (some e) := read_of_enters h
  have heq := hread.symm.trans (read_of_enters h')
  cases heq
  rfl

theorem not_fault_of_enters (h : Enters base line e) (number : Nat) (y : Error) :
    ¬ Fault number line y := by
  intro hy
  have hread : read base number line = .error y := read_of_fault hy
  have heq := hread.symm.trans (read_of_enters h)
  cases heq

/-- **One more line** stands for its own entry, and takes back those of its version. -/
theorem lastEntry_concat_iff : LastEntry base (lines ++ [line]) x ↔
    Enters base line x ∨
      LastEntry base lines x ∧ ∀ e', Enters base line e' → e'.version ≠ x.version := by
  constructor
  · rintro ⟨before, l, after, hlines, hl, hlater⟩
    rcases List.eq_nil_or_concat after with rfl | ⟨init, last, rfl⟩
    · obtain ⟨-, hlast⟩ := List.append_inj' hlines rfl
      cases hlast
      exact Or.inl hl
    · rw [List.concat_eq_append] at hlines hlater
      rw [show before ++ l :: (init ++ [last]) = (before ++ l :: init) ++ [last] by simp] at hlines
      obtain ⟨rfl, hlast⟩ := List.append_inj' hlines rfl
      cases hlast
      refine Or.inr ⟨⟨before, l, init, rfl, hl, fun later hmem => ?_⟩, ?_⟩
      · exact hlater later (List.mem_append_left _ hmem)
      · exact hlater line (List.mem_append_right _ (List.mem_singleton_self _))
  · rintro (hx | ⟨⟨before, l, after, rfl, hl, hlater⟩, hline⟩)
    · exact ⟨lines, line, [], rfl, hx, nofun⟩
    · refine ⟨before, l, after ++ [line], by simp, hl, fun later hmem => ?_⟩
      rcases List.mem_append.mp hmem with hmem | hmem
      · exact hlater later hmem
      · rw [List.mem_singleton.mp hmem]
        exact hline

/-- The versions of the last lines are those of all lines. -/
theorem exists_lastEntry_iff {v : UInt32} :
    (∃ e, LastEntry base lines e ∧ e.version = v) ↔
      ∃ line ∈ lines, ∃ e, Enters base line e ∧ e.version = v := by
  induction lines using List.reverseRecOn with
  | nil =>
    refine ⟨?_, nofun⟩
    rintro ⟨e, ⟨before, line, after, hlines, -⟩, -⟩
    cases before <;> cases hlines
  | append_singleton lines line ih =>
    simp only [List.mem_append, List.mem_singleton, or_and_right, exists_or, exists_eq_left]
    constructor
    · rintro ⟨e, he, hv⟩
      rcases lastEntry_concat_iff.mp he with he | ⟨he, -⟩
      · exact Or.inr ⟨e, he, hv⟩
      · exact Or.inl (ih.mp ⟨e, he, hv⟩)
    · intro h
      by_cases hline : ∃ e, Enters base line e ∧ e.version = v
      · obtain ⟨e, he, hv⟩ := hline
        exact ⟨e, lastEntry_concat_iff.mpr (Or.inl he), hv⟩
      · obtain ⟨e, he, hv⟩ := ih.mpr (h.resolve_right hline)
        refine ⟨e, lastEntry_concat_iff.mpr (Or.inr ⟨he, fun e' he' heq => ?_⟩), hv⟩
        exact hline ⟨e', he', heq.trans hv⟩

theorem exists_enters_iff (base : Option String) {v : UInt32} :
    (∃ e, Enters base line e ∧ e.version = v) ↔
    Significant line ∧ ∃ key value, Splits line key value ∧ Denotes key v := by
  constructor
  · rintro ⟨e, ⟨hline, key, value, hsplit, hkey, -⟩, rfl⟩
    exact ⟨hline, key, value, hsplit, hkey⟩
  · rintro ⟨hline, key, value, hsplit, hkey⟩
    exact ⟨⟨v, _⟩, ⟨hline, key, value, hsplit, hkey, rfl⟩, rfl⟩

/-- **The invariant of reading**: no line was at fault, and the entries are those of the last lines
    for their versions, in ascending order. -/
structure Records (base : Option String) (lines : List (List Char)) (es : List VersionEntry) :
    Prop where
  faultless : ∀ line ∈ lines, ∀ number x, ¬ Fault number line x
  ascending : es.Pairwise fun a b => a.version < b.version
  mem_iff : ∀ e, e ∈ es ↔ LastEntry base lines e

theorem records_nil : Records base [] [] where
  faultless := nofun
  ascending := List.Pairwise.nil
  mem_iff e := by
    refine ⟨nofun, fun h => ?_⟩
    obtain ⟨before, line, after, hlines, -⟩ := h
    cases before <;> cases hlines

namespace Records

/-- **A line that does not count** changes nothing. -/
theorem skip (h : Records base lines es) (hline : ¬ Significant line) :
    Records base (lines ++ [line]) es where
  faultless := by
    intro l hl number x hx
    rcases List.mem_append.mp hl with hl | hl
    · exact h.faultless l hl number x hx
    · rw [List.mem_singleton.mp hl] at hx
      exact hline hx.significant
  ascending := h.ascending
  mem_iff e := by
    rw [h.mem_iff, lastEntry_concat_iff, or_iff_right fun he => hline he.1]
    exact (and_iff_left fun e' he' => absurd he'.1 hline).symm

/-- **A line that stands for an entry** replaces the one of its version. -/
theorem enter (h : Records base lines es) (he : Enters base line e) :
    Records base (lines ++ [line]) (insertEntry e es) where
  faultless := by
    intro l hl number x hx
    rcases List.mem_append.mp hl with hl | hl
    · exact h.faultless l hl number x hx
    · rw [List.mem_singleton.mp hl] at hx
      exact not_fault_of_enters he number x hx
  ascending := pairwise_insertEntry h.ascending
  mem_iff x := by
    rw [mem_insertEntry_iff h.ascending, h.mem_iff, lastEntry_concat_iff]
    refine or_congr ⟨fun hx => hx ▸ he, fun hx => hx.unique he⟩ (and_congr_right fun _ => ?_)
    constructor
    · intro hne e' he'
      rw [he'.unique he]
      exact hne.symm
    · intro hne
      exact (hne e he).symm

/-- **The lines that are read on** keep the invariant, if none of them is an error. -/
theorem entriesFrom {passed rest : List (List Char)} {done : List VersionEntry}
    (h : Records base passed done) (hok : entriesFrom base number done rest = .ok es) :
    Records base (passed ++ rest) es := by
  induction rest generalizing passed done number with
  | nil =>
    cases hok
    rwa [List.append_nil]
  | cons line rest ih =>
    rw [entriesFrom_cons] at hok
    rw [show passed ++ line :: rest = (passed ++ [line]) ++ rest by simp]
    cases hread : read base number line with
    | error x =>
      rw [hread] at hok
      cases hok
    | ok found =>
      rw [hread] at hok
      cases found with
      | none => exact ih (h.skip (read_eq_ok_none_iff.mp hread)) hok
      | some e => exact ih (h.enter (read_eq_ok_some_iff.mp hread)) hok

end Records

/-! ## 3. The first line at fault -/

/-- The first line that is at fault, and its error; `number` is that of the first line. -/
def FirstFault (number : Nat) (lines : List (List Char)) (x : Error) : Prop :=
  ∃ before line after, lines = before ++ line :: after ∧ Fault (number + before.length) line x ∧
    ∀ earlier ∈ before, ∀ n y, ¬ Fault n earlier y

variable {y : Error} {done : List VersionEntry}

theorem firstFault_cons_iff : FirstFault number (line :: lines) y ↔
    Fault number line y ∨ (∀ n z, ¬ Fault n line z) ∧ FirstFault (number + 1) lines y := by
  constructor
  · rintro ⟨before, l, after, hlines, hl, hearlier⟩
    cases before with
    | nil =>
      cases hlines
      exact Or.inl hl
    | cons b before =>
      cases hlines
      rw [List.length_cons, Nat.add_comm before.length, ← Nat.add_assoc] at hl
      exact Or.inr ⟨hearlier _ List.mem_cons_self, before, l, after, rfl, hl,
        fun earlier hmem => hearlier earlier (List.mem_cons_of_mem _ hmem)⟩
  · rintro (hl | ⟨hline, before, l, after, rfl, hl, hearlier⟩)
    · exact ⟨[], line, lines, rfl, hl, nofun⟩
    · refine ⟨line :: before, l, after, rfl, ?_, List.forall_mem_cons.mpr ⟨hline, hearlier⟩⟩
      rw [List.length_cons, Nat.add_comm before.length, ← Nat.add_assoc]
      exact hl

/-- **Reading fails with the error of the first line that is at fault.** -/
theorem entriesFrom_eq_error_iff :
    entriesFrom base number done lines = .error y ↔ FirstFault number lines y := by
  induction lines generalizing number done with
  | nil =>
    refine ⟨nofun, fun h => ?_⟩
    obtain ⟨before, line, after, hlines, -⟩ := h
    cases before <;> cases hlines
  | cons line lines ih =>
    rw [entriesFrom_cons, firstFault_cons_iff]
    cases hread : read base number line with
    | error x =>
      have hx : Fault number line x := read_eq_error_iff.mp hread
      refine ⟨fun h => ?_, fun h => ?_⟩
      · cases h
        exact Or.inl hx
      · rcases h with hy | ⟨hnone, -⟩
        · rw [read_of_fault hy] at hread
          cases hread
          rfl
        · exact absurd hx (hnone number x)
    | ok found =>
      have hnone : ∀ n z, ¬ Fault n line z := by
        intro n z hz
        cases found with
        | none => exact read_eq_ok_none_iff.mp hread hz.significant
        | some e => exact not_fault_of_enters (read_eq_ok_some_iff.mp hread) n z hz
      rw [or_iff_right (hnone number y), and_iff_right hnone]
      cases found with
      | none => exact ih
      | some e => exact ih

/-- A line is at fault exactly if it counts and does not stand for an entry. -/
theorem forall_not_fault_iff :
    (∀ n z, ¬ Fault n line z) ↔
      (Significant line → ∃ key value v, Splits line key value ∧ Denotes key v) := by
  constructor
  · intro h hline
    rcases enters_or_fault none 1 hline with ⟨e, -, key, value, hsplit, hkey, -⟩ | ⟨x, hx⟩
    · exact ⟨key, value, e.version, hsplit, hkey⟩
    · exact absurd hx (h 1 x)
  · intro h n z hz
    obtain ⟨key, value, v, hsplit, hkey⟩ := h hz.significant
    have henters : Enters none line ⟨v, _⟩ := ⟨hz.significant, key, value, hsplit, hkey, rfl⟩
    exact not_fault_of_enters henters n z hz

/-- Reading succeeds exactly if no line is at fault. -/
theorem exists_entriesFrom_iff (base : Option String) :
    (∃ es, entriesFrom base 1 [] lines = .ok es) ↔
      ∀ line ∈ lines, Significant line → ∃ key value v, Splits line key value ∧ Denotes key v := by
  simp only [← forall_not_fault_iff]
  constructor
  · rintro ⟨es, hes⟩
    exact (records_nil.entriesFrom hes).faultless
  · intro h
    cases hread : entriesFrom base 1 [] lines with
    | ok es => exact ⟨es, rfl⟩
    | error y =>
      obtain ⟨before, line, after, rfl, hline, -⟩ := entriesFrom_eq_error_iff.mp hread
      exact absurd hline (h line (List.mem_append_right _ List.mem_cons_self) _ y)

end Steps

end Properties

/-! ## 4. The registry -/

namespace VersionRegistry

/-- A registry is built of any entries in ascending order, with an archive for each. -/
theorem exists_ofEntries (loader : Loader) {es : List VersionEntry}
    (h : es.Pairwise fun a b => a.version < b.version) :
    ∃ r, ofEntries loader es = .ok r ∧
      ∀ a, a ∈ r.archives ↔ ∃ e ∈ es, a = .new e.version e.path loader := by
  have hversions : (es.map fun e => ReferenceArchive.new e.version e.path loader).map
      (·.version) = es.map (·.version) := by
    rw [List.map_map]
    rfl
  have hnodup : (es.map (·.version)).Nodup :=
    List.pairwise_map.mpr (h.imp fun hlt => UInt32.ne_of_lt hlt)
  obtain ⟨r, hr⟩ := exists_ofArchives_iff.mpr (hversions ▸ hnodup)
  refine ⟨r, hr, fun a => ?_⟩
  rw [(archives_perm_of_ofArchives hr).mem_iff, List.mem_map]
  exact exists_congr fun e => and_congr_right fun _ => eq_comm

/-- A text is read into entries first. -/
theorem ofProperties_eq (loader : Loader) (base : Option String) (text : String) :
    ofProperties loader base text =
      match Properties.entriesFrom base 1 [] (Pieces.lines text.toList) with
      | .error x => .error x
      | .ok es => ofEntries loader es := by
  show (Properties.entries base text >>= ofEntries loader) = _
  rw [Properties.entries]
  cases Properties.entriesFrom base 1 [] (Pieces.lines text.toList) <;> rfl

/-- The archives of a registry that was read are those of the entries that were. -/
theorem exists_records_of_ofProperties {loader : Loader} {base : Option String} {text : String}
    {r : VersionRegistry} (h : ofProperties loader base text = .ok r) :
    ∃ es, Properties.Records base (Pieces.lines text.toList) es ∧
      ∀ a, a ∈ r.archives ↔ ∃ e ∈ es, a = .new e.version e.path loader := by
  rw [ofProperties_eq] at h
  cases hread : Properties.entriesFrom base 1 [] (Pieces.lines text.toList) with
  | error x =>
    rw [hread] at h
    cases h
  | ok es =>
    rw [hread] at h
    have hrecords : Properties.Records base (Pieces.lines text.toList) es :=
      Properties.records_nil.entriesFrom hread
    obtain ⟨s, hs, harchives⟩ := exists_ofEntries loader hrecords.ascending
    obtain rfl : s = r := Except.ok.inj (hs.symm.trans h)
    exact ⟨es, hrecords, harchives⟩

/-- **Nothing but a line can be at fault**: the entries always make a registry. -/
theorem ofProperties_eq_error_iff {loader : Loader} {base : Option String} {text : String}
    {x : Error} : ofProperties loader base text = .error x ↔
      Properties.FirstFault 1 (Pieces.lines text.toList) x := by
  have hfault : Properties.entriesFrom base 1 [] (Pieces.lines text.toList) = .error x ↔ _ :=
    Properties.entriesFrom_eq_error_iff
  rw [ofProperties_eq, ← hfault]
  cases hread : Properties.entriesFrom base 1 [] (Pieces.lines text.toList) with
  | error y => simp only [Except.error.injEq]
  | ok es =>
    have hrecords := Properties.records_nil.entriesFrom hread
    obtain ⟨r, hr, -⟩ := exists_ofEntries loader hrecords.ascending
    refine ⟨fun h => ?_, nofun⟩
    cases hr.symm.trans h

theorem exists_ofProperties_iff {loader : Loader} {base : Option String} {text : String} :
    (∃ r, ofProperties loader base text = .ok r) ↔
      ∀ line ∈ Pieces.lines text.toList, Properties.Significant line →
        ∃ key value v, Properties.Splits line key value ∧ Denotes key v := by
  rw [← Properties.exists_entriesFrom_iff base]
  constructor
  · rintro ⟨r, hr⟩
    cases hread : Properties.entriesFrom base 1 [] (Pieces.lines text.toList) with
    | ok es => exact ⟨es, rfl⟩
    | error x =>
      rw [ofProperties_eq, hread] at hr
      cases hr
  · rintro ⟨es, hes⟩
    have hrecords := Properties.records_nil.entriesFrom hes
    obtain ⟨r, hr, -⟩ := exists_ofEntries loader hrecords.ascending
    refine ⟨r, ?_⟩
    rw [ofProperties_eq, hes]
    exact hr

end VersionRegistry

open Properties in
/-- **The registry of a properties text** exists exactly if every line that counts has a separator
    and a version before it. Its versions are those of these lines, in ascending order, and the path
    of each is that of the last line for it. Otherwise the error is that of the first line at
    fault, with its number among all lines; no version is ever reported as repeated. -/
theorem ofProperties_of_lines (loader : Loader) (base : Option String) (text : String) :
    ((∃ r, VersionRegistry.ofProperties loader base text = .ok r) ↔
      ∀ line ∈ Pieces.lines text.toList, Significant line →
        ∃ key value v, Splits line key value ∧ Denotes key v) ∧
    (∀ r, VersionRegistry.ofProperties loader base text = .ok r →
      r.versions.Pairwise (· < ·) ∧
      (∀ v, v ∈ r.versions ↔ ∃ line ∈ Pieces.lines text.toList, Significant line ∧
        ∃ key value, Splits line key value ∧ Denotes key v) ∧
      ∀ a, a ∈ r.archives ↔ ∃ e, LastEntry base (Pieces.lines text.toList) e ∧
        a = .new e.version e.path loader) ∧
    (∀ x, VersionRegistry.ofProperties loader base text = .error x ↔
      FirstFault 1 (Pieces.lines text.toList) x) ∧
    ∀ v, VersionRegistry.ofProperties loader base text ≠ .error (.duplicateVersion v) := by
  refine ⟨VersionRegistry.exists_ofProperties_iff, fun r hr => ?_,
    fun x => VersionRegistry.ofProperties_eq_error_iff, fun v hv => ?_⟩
  · obtain ⟨es, hrecords, harchives⟩ := VersionRegistry.exists_records_of_ofProperties hr
    refine ⟨r.ascending, fun v => ?_, fun a => ?_⟩
    · simp only [← exists_enters_iff base]
      rw [← exists_lastEntry_iff, VersionRegistry.versions, List.mem_map]
      simp only [harchives, hrecords.mem_iff]
      constructor
      · rintro ⟨_, ⟨e, he, rfl⟩, rfl⟩
        exact ⟨e, he, rfl⟩
      · rintro ⟨e, he, rfl⟩
        exact ⟨_, ⟨e, he, rfl⟩, rfl⟩
    · rw [harchives]
      simp only [hrecords.mem_iff]
  · obtain ⟨_, _, _, _, hfault, _⟩ := VersionRegistry.ofProperties_eq_error_iff.mp hv
    cases hfault

/-- A text of three lines, two of which are for one version. -/
def sixteenTwice : String := "# platforms\n16=a.jar\n016 : b.jar\n"

/-- A text of four lines, two of which are at fault. -/
def seventeenAlone : String := "16=a.jar\n\n 17 b.jar \nx=c.jar"

open Properties in
/-- The last line for a version counts, however its number is written, and the first line at
    fault. -/
theorem ofProperties_repeated_and_unseparated :
    (∃ r, VersionRegistry.ofProperties (fun _ => .error .empty) (some "/base") sixteenTwice =
        .ok r ∧
      r.archives.map (·.path) = ["/base/b.jar"] ∧
      LastEntry (some "/base") (Pieces.lines sixteenTwice.toList) ⟨16, "/base/b.jar"⟩) ∧
    FirstFault 1 (Pieces.lines seventeenAlone.toList)
      (.malformed (.noSeparator 3 "17 b.jar")) := by
  obtain ⟨-, hok, -⟩ := ofProperties_of_lines (fun _ => .error .empty) (some "/base") sixteenTwice
  obtain ⟨-, -, herror, -⟩ := ofProperties_of_lines (fun _ => .error .empty) none seventeenAlone
  obtain ⟨-, -, harchives⟩ := hok _ rfl
  obtain ⟨⟨version, path⟩, he, heq⟩ := (harchives _).mp (List.mem_singleton_self _)
  cases heq
  exact ⟨⟨_, rfl, rfl, he⟩, (herror _).mp rfl⟩

end SdkConformance
