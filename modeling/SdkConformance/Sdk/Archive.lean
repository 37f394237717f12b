import SdkConformance.Signature.Table

/-!
# The reference archive of a version

An archive is opened when it is first needed, once, and how that ended is kept. Signature tables
are kept by the class name that was asked for, and so is the answer that there is no such class.
An archive is a value: every operation answers together with the archive as it is afterwards.

* `ensureOpen`: the reader of the opened archive, or the failure of the first attempt;
* `lookupClass`: the table of a class, from the kept ones or from the entry;
* `classFile`: the class itself, read from its entry each time.
-/

namespace SdkConformance

/-! ## 1. Where classes come from -/

/-- Answers the octets of an entry by its name, or that there is none. -/
abbrev EntryReader := String → Except Error (Option Bytes)

/-- Opens the archive at a path. -/
abbrev Loader := String → Except Error EntryReader

/-- The class that the entry of a dotted name holds. An entry that is absent, that cannot be read
    or that is no class file holds none. -/
def EntryReader.classOf (reader : EntryReader) (className : String) : Option ClassFile :=
  match reader (ClassName.entry className) with
  | .ok (some data) => (ClassFile.parse data).toOption
  | _ => none

/-! ## 2. Archives -/

/-- Whether an archive was opened, and how that ended. -/
inductive OpenState where
  | untried
  | opened (reader : EntryReader)
  /-- The text of the failure. -/
  | failed (cause : String)

/-- The archive of a version, with what is kept of it and how often it was touched. -/
structure ReferenceArchive where
  version : UInt32
  path : String
  loader : Loader
  state : OpenState := .untried
  /-- The tables by class name; `none` for a class that is not there. -/
  classes : Std.HashMap String (Option SignatureTable) := ∅
  /-- How often the loader was called. -/
  opens : Nat := 0
  /-- How many entries were read. -/
  reads : Nat := 0

namespace ReferenceArchive

/-- An archive that was not opened yet. -/
def new (version : UInt32) (path : String) (loader : Loader) : ReferenceArchive :=
  { version, path, loader }

/-- The error of an archive that could not be opened. -/
def openError (a : ReferenceArchive) (cause : String) : Error :=
  .archiveOpen a.version a.path cause

/-- How many class names have an answer that is kept. -/
def cachedClasses (a : ReferenceArchive) : Nat := a.classes.size

/-! ## 3. Operations -/

/-- The reader of the archive. The loader is called by the first request only. -/
def ensureOpen (a : ReferenceArchive) : Except Error EntryReader × ReferenceArchive :=
  match a.state with
  | .opened reader => (.ok reader, a)
  | .failed cause => (.error (a.openError cause), a)
  | .untried =>
    match a.loader a.path with
    | .ok reader => (.ok reader, { a with state := .opened reader, opens := a.opens + 1 })
    | .error e =>
      (.error (a.openError e.asCause), { a with state := .failed e.asCause, opens := a.opens + 1 })

/-- Opens the archive, unless that was tried before. -/
def open? (a : ReferenceArchive) : Except Error Unit × ReferenceArchive :=
  match a.ensureOpen with
  | (.ok _, b) => (.ok (), b)
  | (.error e, b) => (.error e, b)

/-- The class of a dotted name, read from its entry; nothing is kept. -/
def classFile (a : ReferenceArchive) (className : String) :
    Except Error (Option ClassFile) × ReferenceArchive :=
  match a.ensureOpen with
  | (.error e, b) => (.error e, b)
  | (.ok reader, b) => (.ok (reader.classOf className), { b with reads := b.reads + 1 })

/-- The signature table of the class of a dotted name, which is kept. -/
def lookupClass (a : ReferenceArchive) (className : String) :
    Except Error (Option SignatureTable) × ReferenceArchive :=
  match a.classes[className]? with
  | some known => (.ok known, a)
  | none =>
    match a.classFile className with
    | (.error e, b) => (.error e, b)
    | (.ok found, b) =>
      let table := found.map SignatureTable.ofClass
      (.ok table, { b with classes := b.classes.insert className table })

/-! ## 4. What no operation changes -/

@[simp] theorem version_ensureOpen (a : ReferenceArchive) :
    a.ensureOpen.2.version = a.version := by
  unfold ensureOpen
  split <;> try rfl
  split <;> rfl

@[simp] theorem version_open? (a : ReferenceArchive) : a.open?.2.version = a.version := by
  have h := version_ensureOpen a
  unfold open?
  split <;> rename_i hb <;> rw [hb] at h <;> exact h

@[simp] theorem version_classFile (a : ReferenceArchive) (className : String) :
    (a.classFile className).2.version = a.version := by
  have h := version_ensureOpen a
  unfold classFile
  split <;> rename_i hb <;> rw [hb] at h <;> exact h

@[simp] theorem version_lookupClass (a : ReferenceArchive) (className : String) :
    (a.lookupClass className).2.version = a.version := by
  have h := version_classFile a className
  unfold lookupClass
  split
  · rfl
  · split <;> rename_i hb <;> rw [hb] at h <;> exact h

end ReferenceArchive

end SdkConformance
