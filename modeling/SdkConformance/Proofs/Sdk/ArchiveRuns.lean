import SdkConformance.Sdk.Archive

/-!
# Runs of an archive

An archive keeps how opening ended and which classes it found, and yet its answers are those of a
function without any state. This file runs an archive through any sequence of requests:

* `ArchiveSource`: all that an archive is read from; `ArchiveSource.answer` computes the answer to a
  request from how the loader ends and from the one entry that the request is about;
* `ReferenceArchive.Coherent`: what is kept agrees with the source, the invariant of every run;
* `trace_eq_map_answer`: the answers of a run are those of the source, request by request;
* `lookupClass_after`: so a look-up answers the same at every point of every run.
-/

namespace SdkConformance

/-! ## 1. Answers without state -/

/-- What an archive is read from. -/
structure ArchiveSource where
  version : UInt32
  path : String
  loader : Loader

namespace ArchiveSource

/-- The archive of a source, not opened yet. -/
def archive (s : ArchiveSource) : ReferenceArchive := .new s.version s.path s.loader

/-- The error of opening, by the error of the loader. -/
def openError (s : ArchiveSource) (e : Error) : Error := .archiveOpen s.version s.path e.asCause

/-- How opening ends. -/
def reader (s : ArchiveSource) : Except Error EntryReader := (s.loader s.path).mapError s.openError

/-- How the loader ends and, where it succeeds, what is answered for the entry of a class. -/
def entryAnswer (s : ArchiveSource) (className : String) :
    Except Error (Except Error (Option Bytes)) :=
  (s.loader s.path).map fun reader => reader (ClassName.entry className)

/-- The class that the answer for an entry holds: none if the entry is absent, cannot be read or
    is no class file. -/
def decoded : Except Error (Option Bytes) → Option ClassFile
  | .error _ => none
  | .ok none => none
  | .ok (some data) =>
    match ClassFile.parse data with
    | .error _ => none
    | .ok c => some c

/-- The class, by how the loader ends and what is answered for the entry. -/
def classFrom (s : ArchiveSource) :
    Except Error (Except Error (Option Bytes)) → Except Error (Option ClassFile)
  | .error e => .error (s.openError e)
  | .ok answer => .ok (decoded answer)

/-- The signature table, by how the loader ends and what is answered for the entry. -/
def tableFrom (s : ArchiveSource) :
    Except Error (Except Error (Option Bytes)) → Except Error (Option SignatureTable)
  | .error e => .error (s.openError e)
  | .ok answer => .ok ((decoded answer).map SignatureTable.ofClass)

theorem decoded_eq_classOf (reader : EntryReader) (n : String) :
    decoded (reader (ClassName.entry n)) = reader.classOf n := by
  unfold decoded EntryReader.classOf
  cases reader (ClassName.entry n) with
  | error e => rfl
  | ok found =>
    cases found with
    | none => rfl
    | some data =>
      show (match ClassFile.parse data with
        | .error _ => none
        | .ok c => some c) = (ClassFile.parse data).toOption
      cases ClassFile.parse data <;> rfl

theorem classFrom_entryAnswer (s : ArchiveSource) (n : String) :
    s.classFrom (s.entryAnswer n) = s.reader.map fun reader => reader.classOf n := by
  unfold entryAnswer reader
  cases s.loader s.path with
  | error e => rfl
  | ok reader =>
    show Except.ok (decoded _) = Except.ok _
    rw [decoded_eq_classOf]

theorem tableFrom_eq_map (s : ArchiveSource)
    (answer : Except Error (Except Error (Option Bytes))) :
    s.tableFrom answer = (s.classFrom answer).map fun c => c.map SignatureTable.ofClass := by
  cases answer <;> rfl

/-- Where the loader succeeds, the answer is never an error. -/
theorem tableFrom_entryAnswer_of_ok {s : ArchiveSource} {reader : EntryReader}
    (h : s.loader s.path = .ok reader) (n : String) :
    s.tableFrom (s.entryAnswer n) =
      .ok ((decoded (reader (ClassName.entry n))).map SignatureTable.ofClass) := by
  rw [entryAnswer, h]; rfl

/-- Where the loader fails, the answer is the error of opening. -/
theorem tableFrom_entryAnswer_of_error {s : ArchiveSource} {e : Error}
    (h : s.loader s.path = .error e) (n : String) :
    s.tableFrom (s.entryAnswer n) = .error (s.openError e) := by
  rw [entryAnswer, h]; rfl

end ArchiveSource

/-! ## 2. Requests and runs -/

/-- A request to an archive. -/
inductive ArchiveCall where
  /-- Open the archive. -/
  | opening
  /-- Find the signature table of a class. -/
  | lookup (className : String)
  /-- Read a class. -/
  | classFile (className : String)
  deriving DecidableEq, Repr

/-- What an archive answers to a request that it can meet. -/
inductive ArchiveAnswer where
  | opened
  | table (found : Option SignatureTable)
  | classFile (found : Option ClassFile)

/-- Puts a request to an archive. -/
def ArchiveCall.run : ArchiveCall → ReferenceArchive → Except Error ArchiveAnswer × ReferenceArchive
  | .opening, a => (a.open?.1.map fun _ => .opened, a.open?.2)
  | .lookup n, a => ((a.lookupClass n).1.map .table, (a.lookupClass n).2)
  | .classFile n, a => ((a.classFile n).1.map .classFile, (a.classFile n).2)

/-- The answer to a request, without state. -/
def ArchiveSource.answer (s : ArchiveSource) : ArchiveCall → Except Error ArchiveAnswer
  | .opening => s.reader.map fun _ => .opened
  | .lookup n => (s.tableFrom (s.entryAnswer n)).map .table
  | .classFile n => (s.classFrom (s.entryAnswer n)).map .classFile

namespace ReferenceArchive

/-- The archive after some requests. -/
def after (a : ReferenceArchive) : List ArchiveCall → ReferenceArchive
  | [] => a
  | call :: calls => (call.run a).2.after calls

/-- The answers to requests, one after the other. -/
def trace (a : ReferenceArchive) : List ArchiveCall → List (Except Error ArchiveAnswer)
  | [] => []
  | call :: calls => (call.run a).1 :: (call.run a).2.trace calls

/-- What the archive is read from. -/
def source (a : ReferenceArchive) : ArchiveSource := ⟨a.version, a.path, a.loader⟩

@[simp] theorem source_archive (s : ArchiveSource) : s.archive.source = s := rfl

/-! ## 3. The source stays -/

/-- Opening changes nothing but the state and the count of openings. -/
theorem ensureOpen_snd (a : ReferenceArchive) :
    ∃ state opens, a.ensureOpen.2 = { a with state := state, opens := opens } := by
  unfold ensureOpen
  split
  · exact ⟨_, _, rfl⟩
  · exact ⟨_, _, rfl⟩
  · split <;> exact ⟨_, _, rfl⟩

@[simp] theorem source_ensureOpen (a : ReferenceArchive) : a.ensureOpen.2.source = a.source := by
  obtain ⟨state, opens, h⟩ := a.ensureOpen_snd
  rw [h]; rfl

@[simp] theorem classes_ensureOpen (a : ReferenceArchive) :
    a.ensureOpen.2.classes = a.classes := by
  obtain ⟨state, opens, h⟩ := a.ensureOpen_snd
  rw [h]

theorem open?_fst (a : ReferenceArchive) : a.open?.1 = a.ensureOpen.1.map fun _ => () := by
  unfold open?
  split <;> rename_i h <;> rw [h] <;> rfl

theorem open?_snd (a : ReferenceArchive) : a.open?.2 = a.ensureOpen.2 := by
  unfold open?
  split <;> rename_i h <;> rw [h]

theorem classFile_fst (a : ReferenceArchive) (n : String) :
    (a.classFile n).1 = a.ensureOpen.1.map fun reader => reader.classOf n := by
  unfold classFile
  split <;> rename_i h <;> rw [h] <;> rfl

/-- Reading a class changes nothing but what opening changes, and the count of reads. -/
theorem classFile_snd (a : ReferenceArchive) (n : String) :
    ∃ reads, (a.classFile n).2 = { a.ensureOpen.2 with reads := reads } := by
  unfold classFile
  split <;> rename_i h <;> rw [h] <;> exact ⟨_, rfl⟩

theorem lookupClass_of_kept {a : ReferenceArchive} {n : String} {found : Option SignatureTable}
    (h : a.classes[n]? = some found) : a.lookupClass n = (.ok found, a) := by
  unfold lookupClass
  rw [h]

theorem lookupClass_fst_of_new {a : ReferenceArchive} {n : String} (h : a.classes[n]? = none) :
    (a.lookupClass n).1 = (a.classFile n).1.map fun c => c.map SignatureTable.ofClass := by
  unfold lookupClass
  rw [h]
  cases hc : a.classFile n with
  | mk result b => cases result <;> rfl

/-- Nothing is kept of a look-up that fails. -/
theorem lookupClass_snd_of_error {a : ReferenceArchive} {n : String} {e : Error}
    (h : a.classes[n]? = none) (he : (a.classFile n).1 = .error e) :
    (a.lookupClass n).2 = (a.classFile n).2 := by
  unfold lookupClass
  rw [h]
  cases hc : a.classFile n with
  | mk result b =>
    rw [hc] at he
    cases he
    rfl

/-- The table that a look-up finds, or that there is none, is kept. -/
theorem lookupClass_snd_of_ok {a : ReferenceArchive} {n : String} {found : Option ClassFile}
    (h : a.classes[n]? = none) (hf : (a.classFile n).1 = .ok found) :
    (a.lookupClass n).2 = { (a.classFile n).2 with
      classes := (a.classFile n).2.classes.insert n (found.map SignatureTable.ofClass) } := by
  unfold lookupClass
  rw [h]
  cases hc : a.classFile n with
  | mk result b =>
    rw [hc] at hf
    cases hf
    rfl

@[simp] theorem source_open? (a : ReferenceArchive) : a.open?.2.source = a.source := by
  rw [open?_snd, source_ensureOpen]

@[simp] theorem source_classFile (a : ReferenceArchive) (n : String) :
    (a.classFile n).2.source = a.source := by
  obtain ⟨reads, h⟩ := a.classFile_snd n
  rw [h]
  exact a.source_ensureOpen

@[simp] theorem source_lookupClass (a : ReferenceArchive) (n : String) :
    (a.lookupClass n).2.source = a.source := by
  cases hn : a.classes[n]? with
  | some found => rw [lookupClass_of_kept hn]
  | none =>
    cases hc : (a.classFile n).1 with
    | error e => rw [lookupClass_snd_of_error hn hc, source_classFile]
    | ok found =>
      rw [lookupClass_snd_of_ok hn hc]
      exact a.source_classFile n

@[simp] theorem source_run (a : ReferenceArchive) (call : ArchiveCall) :
    (call.run a).2.source = a.source := by
  cases call with
  | opening => exact a.source_open?
  | lookup n => exact a.source_lookupClass n
  | classFile n => exact a.source_classFile n

@[simp] theorem source_after (a : ReferenceArchive) (calls : List ArchiveCall) :
    (a.after calls).source = a.source := by
  induction calls generalizing a with
  | nil => rfl
  | cons call calls ih => rw [after, ih, source_run]

/-! ## 4. What is kept agrees with the source -/

end ReferenceArchive

/-- What is known of opening agrees with how the loader ends. -/
def OpenState.Reports : OpenState → Except Error EntryReader → Prop
  | .untried, _ => True
  | .opened reader, outcome => outcome = .ok reader
  | .failed cause, outcome => ∃ e, outcome = .error e ∧ e.asCause = cause

namespace ReferenceArchive

/-- **The invariant of a run**: how opening ended is how the loader ends, and every answer that is
    kept is the answer of the source. -/
structure Coherent (a : ReferenceArchive) : Prop where
  state : a.state.Reports (a.loader a.path)
  classes : ∀ n found, a.classes[n]? = some found →
    a.source.tableFrom (a.source.entryAnswer n) = .ok found

theorem coherent_archive (s : ArchiveSource) : s.archive.Coherent where
  state := trivial
  classes n found h := by
    have hnone : (∅ : Std.HashMap String (Option SignatureTable))[n]? = none := by simp
    rw [ArchiveSource.archive, new, hnone] at h
    cases h

namespace Coherent

variable {a : ReferenceArchive}

/-- Opening answers with how the loader ends, whether it was opened before or not. -/
theorem ensureOpen_fst (h : a.Coherent) : a.ensureOpen.1 = a.source.reader := by
  have hs := h.state
  unfold ensureOpen ArchiveSource.reader
  show _ = (a.loader a.path).mapError a.source.openError
  split
  · rename_i reader hstate
    rw [hstate] at hs
    rw [show a.loader a.path = .ok reader from hs]
    rfl
  · rename_i cause hstate
    rw [hstate] at hs
    obtain ⟨e, he, rfl⟩ := hs
    rw [he]
    rfl
  · cases a.loader a.path <;> rfl

theorem ensureOpen (h : a.Coherent) : a.ensureOpen.2.Coherent where
  state := by
    have hs := h.state
    unfold ReferenceArchive.ensureOpen
    split
    · exact hs
    · exact hs
    · cases hl : a.loader a.path with
      | ok reader => exact hl
      | error e => exact ⟨e, hl, rfl⟩
  classes n found hn := by
    rw [classes_ensureOpen] at hn
    rw [source_ensureOpen]
    exact h.classes n found hn

theorem classFile_fst (h : a.Coherent) (n : String) :
    (a.classFile n).1 = a.source.classFrom (a.source.entryAnswer n) := by
  rw [ReferenceArchive.classFile_fst, h.ensureOpen_fst, ArchiveSource.classFrom_entryAnswer]

theorem classFile (h : a.Coherent) (n : String) : (a.classFile n).2.Coherent := by
  obtain ⟨reads, hc⟩ := a.classFile_snd n
  rw [hc]
  exact ⟨h.ensureOpen.state, h.ensureOpen.classes⟩

/-- A look-up answers with the table of the source, whether it is kept or not. -/
theorem lookupClass_fst (h : a.Coherent) (n : String) :
    (a.lookupClass n).1 = a.source.tableFrom (a.source.entryAnswer n) := by
  cases hn : a.classes[n]? with
  | some found => rw [lookupClass_of_kept hn, h.classes n found hn]
  | none => rw [lookupClass_fst_of_new hn, h.classFile_fst, ArchiveSource.tableFrom_eq_map]

theorem lookupClass (h : a.Coherent) (n : String) : (a.lookupClass n).2.Coherent := by
  cases hn : a.classes[n]? with
  | some found => rw [lookupClass_of_kept hn]; exact h
  | none =>
    cases hc : (a.classFile n).1 with
    | error e => rw [lookupClass_snd_of_error hn hc]; exact h.classFile n
    | ok found =>
      have hkept := h.classFile n
      have hanswer : a.source.tableFrom (a.source.entryAnswer n) =
          .ok (found.map SignatureTable.ofClass) := by
        rw [ArchiveSource.tableFrom_eq_map, ← h.classFile_fst, hc]; rfl
      rw [lookupClass_snd_of_ok hn hc]
      refine ⟨hkept.state, fun k table hk => ?_⟩
      show (a.classFile n).2.source.tableFrom ((a.classFile n).2.source.entryAnswer k) = .ok table
      -- the name that was looked up is kept with its answer, every other one with the old answer
      by_cases hkn : n = k
      · subst hkn
        rw [Std.HashMap.getElem?_insert_self] at hk
        cases hk
        rw [source_classFile]
        exact hanswer
      · rw [Std.HashMap.getElem?_insert, if_neg (by simpa using hkn)] at hk
        exact hkept.classes k table hk

theorem run_fst (h : a.Coherent) (call : ArchiveCall) : (call.run a).1 = a.source.answer call := by
  cases call with
  | opening =>
    show a.open?.1.map _ = _
    rw [open?_fst, h.ensureOpen_fst]
    cases hr : a.source.reader <;> simp only [ArchiveSource.answer, hr] <;> rfl
  | lookup n =>
    show (a.lookupClass n).1.map _ = _
    rw [h.lookupClass_fst]; rfl
  | classFile n =>
    show (a.classFile n).1.map _ = _
    rw [h.classFile_fst]; rfl

/-- **A step keeps the invariant.** -/
theorem run (h : a.Coherent) (call : ArchiveCall) : (call.run a).2.Coherent := by
  cases call with
  | opening =>
    show a.open?.2.Coherent
    rw [open?_snd]
    exact h.ensureOpen
  | lookup n => exact h.lookupClass n
  | classFile n => exact h.classFile n

/-- **A run keeps the invariant.** -/
theorem after (h : a.Coherent) (calls : List ArchiveCall) : (a.after calls).Coherent := by
  induction calls generalizing a with
  | nil => exact h
  | cons call calls ih => exact ih (h.run call)

/-- The answers of a run are those of the source, request by request. -/
theorem trace_eq_map_answer (h : a.Coherent) (calls : List ArchiveCall) :
    a.trace calls = calls.map a.source.answer := by
  induction calls generalizing a with
  | nil => rfl
  | cons call calls ih =>
    rw [trace, List.map_cons, h.run_fst, ih (h.run call), source_run]

end Coherent

end ReferenceArchive

/-! ## 5. Look-ups after a run -/

/-- The readers answer the same for every entry but one. -/
def EntryReader.AgreeBut (entry : String) (r r' : EntryReader) : Prop :=
  ∀ name, name ≠ entry → r name = r' name

/-- A source of which one entry was replaced gives the same answer for every other entry. -/
theorem ArchiveSource.tableFrom_congr {s t : ArchiveSource} {r r' : EntryReader} {entry n : String}
    (hs : s.loader s.path = .ok r) (ht : t.loader t.path = .ok r') (h : r.AgreeBut entry r')
    (hn : ClassName.entry n ≠ entry) :
    t.tableFrom (t.entryAnswer n) = s.tableFrom (s.entryAnswer n) := by
  rw [tableFrom_entryAnswer_of_ok hs, tableFrom_entryAnswer_of_ok ht, h _ hn]

/-- **A look-up is a function of how the loader ends and of one entry**, at every point of every
    run: what came before, what is kept and what the other entries hold do not matter. -/
theorem lookupClass_after (s : ArchiveSource) (calls : List ArchiveCall) (n : String) :
    ((s.archive.after calls).lookupClass n).1 = s.tableFrom (s.entryAnswer n) ∧
    ((s.archive.after calls).lookupClass n).1 =
      ((s.archive.after calls).classFile n).1.map (fun c => c.map SignatureTable.ofClass) ∧
    s.archive.trace calls = calls.map s.answer ∧
    (∀ others, ((s.archive.after others).lookupClass n).1 =
      ((s.archive.after calls).lookupClass n).1) ∧
    (∀ e, s.loader s.path = .error e → ((s.archive.after calls).lookupClass n).1 =
      .error (.archiveOpen s.version s.path e.asCause)) ∧
    (∀ r, s.loader s.path = .ok r →
      ∃ found, ((s.archive.after calls).lookupClass n).1 = .ok found) ∧
    (∀ (t : ArchiveSource) (r r' : EntryReader) (entry : String) (others : List ArchiveCall),
      s.loader s.path = .ok r → t.loader t.path = .ok r' → r.AgreeBut entry r' →
      ClassName.entry n ≠ entry →
      ((t.archive.after others).lookupClass n).1 = ((s.archive.after calls).lookupClass n).1) := by
  have hanswer : ∀ (t : ArchiveSource) (others : List ArchiveCall),
      ((t.archive.after others).lookupClass n).1 = t.tableFrom (t.entryAnswer n) := by
    intro t others
    rw [((ReferenceArchive.coherent_archive t).after others).lookupClass_fst,
      ReferenceArchive.source_after, ReferenceArchive.source_archive]
  have hs := (ReferenceArchive.coherent_archive s).after calls
  refine ⟨hanswer s calls, ?_, (ReferenceArchive.coherent_archive s).trace_eq_map_answer calls,
    fun others => (hanswer s others).trans (hanswer s calls).symm, fun e he => ?_, fun r hr => ?_,
    fun t r r' entry others hr hr' hagree hne => ?_⟩
  · rw [hs.lookupClass_fst, hs.classFile_fst, ArchiveSource.tableFrom_eq_map]
  · rw [hanswer, ArchiveSource.tableFrom_entryAnswer_of_error he]; rfl
  · exact ⟨_, (hanswer s calls).trans (ArchiveSource.tableFrom_entryAnswer_of_ok hr n)⟩
  · rw [hanswer, hanswer]
    exact ArchiveSource.tableFrom_congr hr hr' hagree hne

/-- A source that can be opened and has no entries. -/
def ArchiveSource.bare : ArchiveSource := ⟨21, "21.jar", fun _ => .ok fun _ => .ok none⟩

/-- The same with an entry `a/B.class` that cannot be read. -/
def ArchiveSource.damaged : ArchiveSource :=
  ⟨21, "21.jar", fun _ => .ok fun name => if name = "a/B.class" then .error .empty else .ok none⟩

/-- Also after the damaged entry was met, other classes are answered as if it were whole. -/
theorem lookupClass_damaged :
    ((ArchiveSource.damaged.archive.after [.lookup "a.B", .opening]).lookupClass "c.D").1 =
      ((ArchiveSource.bare.archive.after []).lookupClass "c.D").1 ∧
    ((ArchiveSource.damaged.archive.after [.opening]).lookupClass "a.B").1.toOption.map
      Option.isSome = some false := by
  have hagree : EntryReader.AgreeBut "a/B.class" (fun _ => .ok none)
      fun name => if name = "a/B.class" then .error .empty else .ok none :=
    fun name hname => (if_neg hname).symm
  constructor
  · exact (lookupClass_after .bare [] "c.D").2.2.2.2.2.2 .damaged _ _ "a/B.class" _ rfl rfl hagree
      (by decide)
  · rw [(lookupClass_after .damaged [.opening] "a.B").1]
    rfl

end SdkConformance
