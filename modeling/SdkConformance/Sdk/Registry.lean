import SdkConformance.Sdk.Archive
import SdkConformance.Sdk.Path
import SdkConformance.Sdk.Range
import SdkConformance.Sdk.Version
import SdkConformance.Text.Pieces

/-!
# The registry of versions

A registry holds the archives of the configured versions in ascending order, no version twice;
both are part of its type. It is built from keys and paths or from a properties text.

* `VersionRegistry.ofPairs`: every key is read before a repeated version is noticed;
* `Properties.entries`: the entries of a properties text, where a later line replaces an earlier
  one for the same version;
* `VersionRegistry.inRange`: the archives of the versions in a range;
* `VersionRegistry.visit`: runs an operation on selected archives, in ascending order, up to the
  first that fails.
-/

namespace SdkConformance

/-! ## 1. Ascending lists -/

/-- Puts an entry at its place; an entry of the same version is replaced. -/
def insertEntry (e : VersionEntry) : List VersionEntry → List VersionEntry
  | [] => [e]
  | x :: xs =>
    if e.version < x.version then e :: x :: xs
    else if x.version < e.version then x :: insertEntry e xs
    else e :: xs

/-- Puts an archive at its place; `none` if there is one of the same version. -/
def insertArchive? (a : ReferenceArchive) : List ReferenceArchive → Option (List ReferenceArchive)
  | [] => some [a]
  | x :: xs =>
    if a.version < x.version then some (a :: x :: xs)
    else if x.version < a.version then (insertArchive? a xs).map (x :: ·)
    else none

/-- Archives in ascending order of their versions, none twice. -/
def Ascending (as : List ReferenceArchive) : Prop :=
  (as.map (·.version)).Pairwise (· < ·)

theorem version_mem_of_insertArchive? {a : ReferenceArchive} {as bs : List ReferenceArchive}
    (h : insertArchive? a as = some bs) (v : UInt32) :
    v ∈ bs.map (·.version) ↔ v = a.version ∨ v ∈ as.map (·.version) := by
  induction as generalizing bs with
  | nil => cases h; simp
  | cons x xs ih =>
    simp only [insertArchive?] at h
    split at h
    · cases h; simp
    · split at h
      · obtain ⟨ys, hys, rfl⟩ := Option.map_eq_some_iff.1 h
        simp only [List.map_cons, List.mem_cons, ih hys]
        constructor <;> rintro (h | h | h) <;> simp [h]
      · cases h

theorem Ascending.insertArchive? {a : ReferenceArchive} {as bs : List ReferenceArchive}
    (hs : Ascending as) (h : insertArchive? a as = some bs) : Ascending bs := by
  induction as generalizing bs with
  | nil => cases h; simp [Ascending]
  | cons x xs ih =>
    simp only [Ascending, List.map_cons, List.pairwise_cons] at hs
    simp only [SdkConformance.insertArchive?] at h
    split at h
    · rename_i hlt
      cases h
      simp only [Ascending, List.map_cons, List.pairwise_cons, List.mem_cons]
      refine ⟨?_, hs⟩
      rintro v (rfl | hv)
      · exact hlt
      · exact UInt32.lt_trans hlt (hs.1 v hv)
    · split at h
      · rename_i hlt
        obtain ⟨ys, hys, rfl⟩ := Option.map_eq_some_iff.1 h
        simp only [Ascending, List.map_cons, List.pairwise_cons]
        refine ⟨?_, ih hs.2 hys⟩
        intro v hv
        rcases (version_mem_of_insertArchive? hys v).1 hv with rfl | hv
        · exact hlt
        · exact hs.1 v hv
      · cases h

/-! ## 2. Registries -/

/-- The archives of the configured versions. -/
structure VersionRegistry where
  archives : List ReferenceArchive
  ascending : Ascending archives

namespace VersionRegistry

/-- A registry without versions. -/
def empty : VersionRegistry := ⟨[], by simp [Ascending]⟩

/-- Adds an archive, unless its version is there. -/
def add (r : VersionRegistry) (a : ReferenceArchive) : Except Error VersionRegistry :=
  match h : insertArchive? a r.archives with
  | some as => .ok ⟨as, r.ascending.insertArchive? h⟩
  | none => .error (.duplicateVersion a.version)

/-- The registry of some archives; the first one whose version occurred before is an error. -/
def ofArchives (as : List ReferenceArchive) : Except Error VersionRegistry :=
  as.foldlM add empty

/-- The registry of entries whose archives are opened by `loader`. -/
def ofEntries (loader : Loader) (es : List VersionEntry) : Except Error VersionRegistry :=
  ofArchives (es.map fun e => .new e.version e.path loader)

/-- The registry of keys and paths. -/
def ofPairs (loader : Loader) (pairs : List (String × String)) :
    Except Error VersionRegistry := do
  let es ← pairs.mapM fun (key, path) => VersionEntry.parse key path
  ofEntries loader es

end VersionRegistry

/-! ## 3. Properties -/

namespace Properties

/-- What the lines of a properties text can be. -/
inductive Line where
  /-- Nothing, or a comment. -/
  | idle
  /-- A key and a value around the first separator. -/
  | entry (key value : String)
  /-- A text without separator. -/
  | broken (text : String)
  deriving DecidableEq, Repr

/-- The character between a key and its value. -/
def isSeparator (c : Char) : Bool := c == '=' || c == ':'

/-- Reads a line; white space around it, its key and its value does not count. -/
def Line.ofChars (line : List Char) : Line :=
  match trimChars line with
  | [] => .idle
  | c :: r =>
    if c == '#' || c == '!' then .idle
    else
      match (c :: r).dropWhile (!isSeparator ·) with
      | [] => .broken (String.ofList (c :: r))
      | _ :: value =>
        .entry (String.ofList (trimChars ((c :: r).takeWhile (!isSeparator ·))))
          (String.ofList (trimChars value))

/-- The path that a value stands for: relative values are seen from the base, if there is one. -/
def resolve (base : Option String) (value : String) : String :=
  match base with
  | some base => Path.join base value
  | none => value

/-- Enters the lines one after the other; `number` is that of the next line. -/
def entriesFrom (base : Option String) (number : Nat) (done : List VersionEntry) :
    List (List Char) → Except Error (List VersionEntry)
  | [] => .ok done
  | line :: rest =>
    match Line.ofChars line with
    | .idle => entriesFrom base (number + 1) done rest
    | .broken text => .error (.malformed (.noSeparator number text))
    | .entry key value =>
      match VersionEntry.parse key (resolve base value) with
      | .error e => .error e
      | .ok e => entriesFrom base (number + 1) (insertEntry e done) rest

/-- The entries of a properties text in ascending order. -/
def entries (base : Option String) (text : String) : Except Error (List VersionEntry) :=
  entriesFrom base 1 [] (Pieces.lines text.toList)

end Properties

namespace VersionRegistry

/-- The registry of a properties text. -/
def ofProperties (loader : Loader) (base : Option String) (text : String) :
    Except Error VersionRegistry := do
  ofEntries loader (← Properties.entries base text)

/-! ## 4. Looking things up -/

/-- The versions, in ascending order. -/
def versions (r : VersionRegistry) : List UInt32 := r.archives.map (·.version)

/-- The number of versions. -/
def size (r : VersionRegistry) : Nat := r.archives.length

/-- Whether there is no version. -/
def isEmpty (r : VersionRegistry) : Bool := r.archives.isEmpty

/-- The archive of a version. -/
def get? (r : VersionRegistry) (version : UInt32) : Option ReferenceArchive :=
  r.archives.find? (·.version == version)

/-- The archives of the versions in a range, in ascending order. -/
def inRange (r : VersionRegistry) (range : SdkRange) : List ReferenceArchive :=
  r.archives.filter (range.selects ·.version)

/-! ## 5. Working with the archives -/

/-- Runs `step` on the selected archives up to the first failure; the others stay as they are. -/
def visitArchives {α : Type} (selected : UInt32 → Bool)
    (step : ReferenceArchive → Except Error α × ReferenceArchive) :
    List ReferenceArchive → Except Error (List α) × List ReferenceArchive
  | [] => (.ok [], [])
  | a :: as =>
    if selected a.version then
      match step a with
      | (.error e, b) => (.error e, b :: as)
      | (.ok x, b) =>
        let (result, bs) := visitArchives selected step as
        (result.map (x :: ·), b :: bs)
    else
      let (result, bs) := visitArchives selected step as
      (result, a :: bs)

theorem versions_visitArchives {α : Type} (selected : UInt32 → Bool)
    {step : ReferenceArchive → Except Error α × ReferenceArchive}
    (hstep : ∀ a, (step a).2.version = a.version) (as : List ReferenceArchive) :
    (visitArchives selected step as).2.map (·.version) = as.map (·.version) := by
  induction as with
  | nil => rfl
  | cons a as ih =>
    have ha := hstep a
    simp only [visitArchives]
    split
    · split
      · rename_i hb
        rw [hb] at ha
        simpa using ha
      · rename_i hb
        rw [hb] at ha
        simpa [ih] using ha
    · simp [ih]

/-- Runs an operation that keeps versions on the selected archives, up to the first failure. -/
def visit {α : Type} (r : VersionRegistry) (selected : UInt32 → Bool)
    (step : ReferenceArchive → Except Error α × ReferenceArchive)
    (hstep : ∀ a, (step a).2.version = a.version) :
    Except Error (List α) × VersionRegistry :=
  match h : visitArchives selected step r.archives with
  | (result, as) => (result, ⟨as, by
      have := versions_visitArchives selected hstep r.archives
      rw [h] at this
      rw [Ascending, this]; exact r.ascending⟩)

/-- Runs an operation that keeps versions on the archive of one version, if there is one. -/
def onVersion {α : Type} (r : VersionRegistry) (version : UInt32)
    (step : ReferenceArchive → Except Error α × ReferenceArchive)
    (hstep : ∀ a, (step a).2.version = a.version) :
    Except Error (Option α) × VersionRegistry :=
  let (result, r') := r.visit (· == version) step hstep
  (result.map List.head?, r')

end VersionRegistry

end SdkConformance
