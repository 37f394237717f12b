import SdkConformance.Proofs.ClassFile.LayoutReading
import SdkConformance.Proofs.ClassFile.WrittenTexts
import SdkConformance.Proofs.Sdk.ArchiveRuns

/-!
# The entry of a class

A class has its internal name in its own file, a dotted name in all answers, and an entry in an
archive. The dotted name is made in two ways, and the entry is found from it alone.

* `Pieces.join_splitOn_eq_map`: to join pieces with another separator is to replace the separator;
* `ClassName.dotted_eq_canonical`: so the name of a class and the name of its type agree;
* `ClassName.entry_dotted`: the entry of a dotted name is that of the internal name;
* `Writes`: octets hold a class under an internal name; `classOf_of_writes`: it is found by its
  dotted name where its entry holds it;
* `internal_dotted_and_entry`: all of this for every internal name.
-/

namespace SdkConformance

/-! ## 1. Dotted names -/

namespace Pieces

variable {α : Type} [DecidableEq α]

/-- The piece under way comes first, and every separator behind it becomes another one. -/
theorem join_splitFrom_eq_map (sep sep' : α) (piece as : List α) :
    join sep' (splitFrom sep [] piece as) =
      piece.reverse ++ as.map fun a => if a = sep then sep' else a := by
  induction as generalizing piece with
  | nil => rw [splitFrom, List.reverse_singleton, join, List.map_nil, List.append_nil]
  | cons a as ih =>
    rw [List.map_cons, splitFrom]
    by_cases h : a = sep
    · have hrest := ih []
      rw [if_pos h, if_pos h, splitFrom_eq, List.reverse_singleton, List.singleton_append]
      cases hpieces : splitFrom sep [] [] as with
      | nil => exact absurd hpieces (splitFrom_ne_nil sep [] as)
      | cons p ps =>
        rw [hpieces] at hrest
        rw [join, hrest]
        · rfl
        · exact fun h => by cases h
    · rw [if_neg h, if_neg h, ih, List.reverse_cons, List.append_assoc]
      rfl

/-- **To join the pieces with another separator is to replace the separator**, wherever it is. -/
theorem join_splitOn_eq_map (sep sep' : α) (as : List α) :
    join sep' (splitOn sep as) = as.map fun a => if a = sep then sep' else a :=
  join_splitFrom_eq_map sep sep' [] as

end Pieces

namespace ClassName

/-- The two ways to make a dotted name agree. -/
theorem dotted_eq_canonical (n : String) : dotted n = canonical n := by
  rw [dotted, canonical, Pieces.join_splitOn_eq_map]

/-! ## 2. Entries -/

/-- A slash for every dot undoes a dot for every slash, if there was no dot. -/
theorem map_slash_map_dot {cs : List Char} (h : '.' ∉ cs) :
    (cs.map fun c => if c = '/' then '.' else c).map (fun c => if c = '.' then '/' else c) =
      cs := by
  have hback : ∀ c ∈ cs, (fun c => if c = '.' then '/' else c)
      (if c = '/' then '.' else c) = c := by
    intro c hc
    by_cases hslash : c = '/'
    · rw [if_pos hslash, hslash]
      rfl
    · have hdot : c ≠ '.' := fun hdot => h (hdot ▸ hc)
      rw [if_neg hslash]
      exact if_neg hdot
  rw [List.map_map]
  exact (List.map_congr_left hback).trans (List.map_id cs)

/-- **The entry of a dotted name is that of the internal name.** -/
theorem entry_dotted {n : String} (h : '.' ∉ n.toList) : entry (dotted n) = n ++ ".class" := by
  rw [entry, dotted, String.toList_ofList, map_slash_map_dot h, String.ofList_toList]

/-- Internal names have entries of their own. -/
theorem eq_of_entry_dotted_eq {n m : String} (hn : '.' ∉ n.toList) (hm : '.' ∉ m.toList)
    (h : entry (dotted n) = entry (dotted m)) : n = m := by
  rw [entry_dotted hn, entry_dotted hm] at h
  have hchars := congrArg String.toList h
  rw [String.toList_append, String.toList_append] at hchars
  exact String.toList_inj.mp (List.append_cancel_right hchars)

end ClassName

/-! ## 3. Classes that are found -/

/-- The octets start with a class, and the slot of its name holds the internal name. -/
def Writes (data : Bytes) (c : ClassFile) (n : String) : Prop :=
  ∃ (l : ClassLayout) (rest : Bytes), data = l.octets ++ rest ∧ l.Shows c ∧
    HoldsClass l.pool.slots l.body.thisIndex n

/-- The octets start with a class, and the slot of its parent's name holds the internal name. -/
def WritesSuper (data : Bytes) (c : ClassFile) (n : String) : Prop :=
  ∃ (l : ClassLayout) (rest : Bytes), data = l.octets ++ rest ∧ l.Shows c ∧
    l.body.superIndex ≠ 0 ∧ HoldsClass l.pool.slots l.body.superIndex n

theorem HoldsClass.unique {slots : List Constant} {index : UInt16} {n m : String}
    (hn : HoldsClass slots index n) (hm : HoldsClass slots index m) : n = m := by
  obtain ⟨i, hi, hn⟩ := hn
  obtain ⟨j, hj, hm⟩ := hm
  cases hi.symm.trans hj
  cases hn.symm.trans hm
  rfl

section Written

variable {data : Bytes} {c : ClassFile} {n : String}

/-- The octets that write the name of a class are those that are parsed to it. -/
theorem exists_writes_iff : (∃ n, Writes data c n) ↔ ClassFile.parse data = .ok c := by
  rw [ClassFile.parse_eq_ok_iff]
  constructor
  · intro h
    obtain ⟨n, l, rest, hdata, hshows, -⟩ := h
    exact ⟨l, rest, hdata, hshows⟩
  · intro h
    obtain ⟨l, rest, hdata, hshows⟩ := h
    obtain ⟨n, hn, -⟩ := hshows.body.name
    exact ⟨n, l, rest, hdata, hshows, hn⟩

/-- A class with a parent has its name written. -/
theorem exists_writesSuper (h : ClassFile.parse data = .ok c) (hsuper : c.superName ≠ none) :
    ∃ n, WritesSuper data c n := by
  obtain ⟨l, rest, hdata, hshows⟩ := (ClassFile.parse_eq_ok_iff data c).mp h
  have hindex : l.body.superIndex ≠ 0 := fun hzero => hsuper (hshows.body.noSuper hzero)
  obtain ⟨n, hn, -⟩ := hshows.body.superName hindex
  exact ⟨n, l, rest, hdata, hshows, hindex, hn⟩

theorem Writes.parse (h : Writes data c n) : ClassFile.parse data = .ok c :=
  exists_writes_iff.mp ⟨n, h⟩

/-- The name that is answered is the dotted one. -/
theorem Writes.name_eq (h : Writes data c n) : c.name = ClassName.dotted n := by
  obtain ⟨l, _, -, hshows, hn⟩ := h
  obtain ⟨m, hm, hname⟩ := hshows.body.name
  rw [hname, hm.unique hn]

theorem WritesSuper.superName_eq (h : WritesSuper data c n) :
    c.superName = some (ClassName.dotted n) := by
  obtain ⟨l, _, -, hshows, hindex, hn⟩ := h
  obtain ⟨m, hm, hname⟩ := hshows.body.superName hindex
  rw [hname, hm.unique hn]

/-- **A class is found by the name it answers**, where the entry of its internal name holds it. -/
theorem classOf_of_writes {reader : EntryReader} (h : Writes data c n) (hdot : '.' ∉ n.toList)
    (hentry : reader (n ++ ".class") = .ok (some data)) : reader.classOf c.name = some c := by
  rw [EntryReader.classOf, h.name_eq, ClassName.entry_dotted hdot, hentry]
  simp only [h.parse]
  rfl

end Written

/-- The class of an entry is answered at every point of every run. -/
theorem answers_after_of_classOf {s : ArchiveSource} {reader : EntryReader} {c : ClassFile}
    {className : String} (hopen : s.loader s.path = .ok reader)
    (hclass : reader.classOf className = some c) (calls : List ArchiveCall) :
    ((s.archive.after calls).classFile className).1 = .ok (some c) ∧
      ((s.archive.after calls).lookupClass className).1 = .ok (some (.ofClass c)) := by
  have hs := (ReferenceArchive.coherent_archive s).after calls
  have hreader : s.reader = .ok reader := by
    rw [ArchiveSource.reader, hopen]
    rfl
  have hfrom : s.classFrom (s.entryAnswer className) = .ok (some c) := by
    rw [ArchiveSource.classFrom_entryAnswer, hreader, ← hclass]
    rfl
  constructor
  · rw [hs.classFile_fst, ReferenceArchive.source_after, ReferenceArchive.source_archive, hfrom]
  · rw [hs.lookupClass_fst, ReferenceArchive.source_after, ReferenceArchive.source_archive,
      ArchiveSource.tableFrom_eq_map, hfrom]
    rfl

/-- **The three forms of a class name agree.** The dotted form that classes and their parents are
    answered with is the name of their type, whatever the internal name is. Without dots in it, the
    entry of the dotted form is the internal name with its ending, which no other such name shares;
    so a class is found by the name it answers, at every point of every run of an archive that holds
    it under its internal name. -/
theorem internal_dotted_and_entry :
    (∀ n, ClassName.dotted n = (ElementType.object n).name) ∧
    (∀ n, '.' ∉ n.toList → ClassName.entry (ClassName.dotted n) = n ++ ".class") ∧
    (∀ n m, '.' ∉ n.toList → '.' ∉ m.toList →
      ClassName.entry (ClassName.dotted n) = ClassName.entry (ClassName.dotted m) → n = m) ∧
    (∀ data c, ClassFile.parse data = .ok c →
      (∃ n, Writes data c n) ∧ (c.superName ≠ none → ∃ n, WritesSuper data c n)) ∧
    (∀ data c n, WritesSuper data c n → c.superName = some (ElementType.object n).name) ∧
    ∀ data c n, Writes data c n → c.name = (ElementType.object n).name ∧
      ('.' ∉ n.toList → ∀ (s : ArchiveSource) (reader : EntryReader) (calls : List ArchiveCall),
        s.loader s.path = .ok reader → reader (n ++ ".class") = .ok (some data) →
        ((s.archive.after calls).classFile c.name).1 = .ok (some c) ∧
          ((s.archive.after calls).lookupClass c.name).1 = .ok (some (.ofClass c))) := by
  have hname : ∀ n, ClassName.dotted n = (ElementType.object n).name :=
    ClassName.dotted_eq_canonical
  refine ⟨hname, fun n hn => ClassName.entry_dotted hn,
    fun n m hn hm h => ClassName.eq_of_entry_dotted_eq hn hm h,
    fun data c hc => ⟨exists_writes_iff.mpr hc, exists_writesSuper hc⟩,
    fun data c n h => ?_, fun data c n h => ⟨?_, fun hdot s reader calls hopen hentry => ?_⟩⟩
  · rw [h.superName_eq, hname]
  · rw [h.name_eq, hname]
  · exact answers_after_of_classOf hopen (classOf_of_writes h hdot hentry) calls

/-- The layout of a class `a/B` with the parent `c//D`. -/
def ClassLayout.derived : ClassLayout where
  minorVersion := 0
  majorVersion := 52
  pool := ⟨[.ofText "a/B" (by decide), .classRef 1, .ofText "c//D" (by decide), .classRef 3],
    by decide⟩
  body := ⟨0x21, 2, 4, ⟨[], by decide⟩, ⟨[], by decide⟩, ⟨[], by decide⟩⟩

/-- The class of this layout. -/
def ClassFile.derived : ClassFile := ⟨0, 52, ⟨0x21⟩, "a.B", some "c..D", []⟩

/-- An archive with this class alone. -/
def ArchiveSource.derived : ArchiveSource :=
  ⟨21, "21.jar", fun _ => .ok fun name =>
    .ok (if name = "a/B.class" then some ClassLayout.derived.octets else none)⟩

/-- The class is found by its name after another look-up. Both names in it are the dotted forms,
    also the one with an empty segment, and have entries of their own. -/
theorem internal_dotted_and_entry_derived :
    ((ArchiveSource.derived.archive.after [.lookup "c..D"]).classFile "a.B").1 =
      .ok (some .derived) ∧
    (∃ n, Writes ClassLayout.derived.octets .derived n) ∧
    (∃ n, WritesSuper ClassLayout.derived.octets .derived n) ∧
    ClassFile.derived.superName = some (ElementType.object "c//D").name ∧
    ClassName.entry (ClassName.dotted "c//D") = "c//D.class" ∧
    ClassName.entry (ClassName.dotted "a/B") ≠ ClassName.entry (ClassName.dotted "c//D") := by
  obtain ⟨-, hentry, hunique, hwritten, hsuper, hfound⟩ := internal_dotted_and_entry
  have hthis : HoldsClass ClassLayout.derived.pool.slots 2 "a/B" := ⟨1, rfl, rfl⟩
  have hparent : HoldsClass ClassLayout.derived.pool.slots 4 "c//D" := ⟨3, rfl, rfl⟩
  have hshows : ClassLayout.derived.Shows .derived :=
    ⟨rfl, rfl, rfl, ⟨_, hthis, rfl⟩, nofun, fun _ => ⟨_, hparent, rfl⟩, .nil⟩
  have hdata := (List.append_nil ClassLayout.derived.octets).symm
  have hwrites : Writes ClassLayout.derived.octets .derived "a/B" :=
    ⟨_, [], hdata, hshows, hthis⟩
  have hparse := hwrites.parse
  refine ⟨?_, (hwritten _ _ hparse).1, (hwritten _ _ hparse).2 nofun,
    hsuper _ _ _ ⟨_, [], hdata, hshows, by decide, hparent⟩, hentry _ (by decide), fun h => ?_⟩
  · obtain ⟨-, hanswers⟩ := hfound _ _ _ hwrites
    exact (hanswers (by decide) .derived _ [.lookup "c..D"] rfl rfl).1
  · exact absurd (hunique _ _ (by decide) (by decide) h) (by decide)

end SdkConformance
