import SdkConformance.Command.Run
import SdkConformance.Proofs.Command.MethodListings
import SdkConformance.Proofs.Declaration.ManifestReading
import SdkConformance.Proofs.Zip.DirectoryEntries

/-!
# How a check ends

A check reads a properties file and a manifest, validates the declarations as one batch and adds up
what was found. It passes if nothing was.

* `VersionRegistry.exists_sources_of_ofFile`: the registry of a properties file is new, and its
  archives are opened from the files;
* `DeclaredMethod.exists_reference_error_iff`, `DeclaredMethod.pairwise_version_of_reference`: when
  a declaration is aborted, and in which order its differences come;
* `CheckReport.Sums`: the numbers of a report; `CheckReport.Tells`: what a check comes to;
* `check_tells_differences`: a check comes to that, in whatever order its batch is worked off.
-/

namespace SdkConformance

/-! ## 1. Registries of files -/

namespace VersionRegistry

variable {files : Files} {path : String} {r : VersionRegistry}

/-- Of the registry of a properties file nothing is opened yet. -/
theorem exists_sources_of_ofFile (h : ofFile files path = .ok r) : ∃ ss : List ArchiveSource,
    ofArchives (ss.map (·.archive)) = .ok r ∧ ∀ s ∈ ss, s.loader = files.loader := by
  unfold ofFile at h
  split at h
  · cases h
  · rename_i text _
    change (Properties.entries _ text >>= ofEntries files.loader) = _ at h
    cases hes : Properties.entries (Path.parent? path) text with
    | error e =>
      rw [hes] at h
      cases h
    | ok es =>
      rw [hes] at h
      refine ⟨es.map fun e => ⟨e.version, e.path, files.loader⟩, ?_, fun s hs => ?_⟩
      · rw [List.map_map]
        exact h
      · obtain ⟨e, -, rfl⟩ := List.mem_map.mp hs
        rfl

theorem coherent_of_ofFile (h : ofFile files path = .ok r) : r.Coherent := by
  obtain ⟨ss, hss, -⟩ := exists_sources_of_ofFile h
  exact coherent_of_ofArchives_map hss

/-- An archive cannot be opened exactly where there is no jar at its path. -/
theorem failure?_ne_none_iff_of_ofFile (h : ofFile files path = .ok r) {a : ReferenceArchive}
    (ha : a ∈ r.archives) : a.source.failure? ≠ none ↔ ∃ e, files.jar a.path = .error e := by
  obtain ⟨ss, hss, hloader⟩ := exists_sources_of_ofFile h
  have hmem := (sources_perm_of_ofArchives hss).mem_iff.mp (List.mem_map_of_mem ha)
  have hopen : a.source.loader a.source.path = (files.jar a.path).map Jar.read :=
    congrFun (hloader _ hmem) a.path
  cases hjar : files.jar a.path with
  | error e =>
    rw [hjar] at hopen
    rw [ArchiveSource.failure?_of_error hopen]
    exact ⟨fun _ => ⟨e, rfl⟩, fun _ => nofun⟩
  | ok jar =>
    rw [hjar] at hopen
    rw [ArchiveSource.failure?_of_ok hopen]
    exact ⟨fun h => absurd rfl h, fun h => absurd h nofun⟩

end VersionRegistry

/-! ## 2. Single declarations -/

namespace DeclaredMethod

variable {m : DeclaredMethod} {sources : List ArchiveSource}

/-- A declaration is aborted exactly where an archive that it is meant for cannot be opened. -/
theorem exists_reference_error_iff : (∃ e, m.reference sources = .error e) ↔
    ∃ s ∈ sources, m.effectiveRange.contains s.version = true ∧ s.failure? ≠ none := by
  constructor
  · intro h
    obtain ⟨e, he⟩ := h
    by_contra hnone
    have hopen : ∀ s ∈ m.within sources, s.failure? = none := by
      intro s hs
      obtain ⟨hmem, hcontains⟩ := List.mem_filter.mp hs
      by_contra hfailure
      exact hnone ⟨s, hmem, hcontains, hfailure⟩
    cases he.symm.trans (m.reference_of_open hopen)
  · intro h
    obtain ⟨s, hs, hcontains, hfailure⟩ := h
    cases hreference : m.reference sources with
    | error e => exact ⟨e, rfl⟩
    | ok ds =>
      exact absurd (VersionRegistry.failure?_of_reference hreference hs hcontains) hfailure

/-- A difference is one from the version that it was found in. -/
theorem version_of_mem_differences {version : UInt32} {c : Option ClassFile} {d : Diagnostic}
    (h : d ∈ m.differences version c) : d.version = version := by
  rw [← check_map_ofClass] at h
  cases c with
  | none =>
    rw [List.mem_singleton.mp h]
    rfl
  | some c =>
    simp only [Option.map_some, check] at h
    split at h
    · rw [List.mem_singleton.mp h]
      rfl
    · rcases eq_of_mem_compare h with rfl | rfl <;> rfl

/-- The differences of a declaration come in ascending order of their versions. -/
theorem pairwise_version_of_reference
    (hsources : (sources.map (·.version)).Pairwise (· < ·)) {ds : List Diagnostic}
    (h : m.reference sources = .ok ds) : ds.Pairwise fun d d' => d.version ≤ d'.version := by
  unfold reference differencesOver at h
  split at h
  · cases h
  · cases h
    have hversion : ∀ (s : ArchiveSource), ∀ d ∈ m.differences s.version (s.class? m.className),
        d.version = s.version := fun s d hd => version_of_mem_differences hd
    refine List.pairwise_flatMap.mpr ⟨fun s _ => ?_, ?_⟩
    · refine List.pairwise_of_forall_mem_list fun d hd d' hd' => ?_
      rw [hversion s d hd, hversion s d' hd']
      exact UInt32.le_refl _
    · refine (List.Pairwise.filter _ (List.pairwise_map.mp hsources)).imp fun hlt d hd d' hd' => ?_
      rw [hversion _ d hd, hversion _ d' hd']
      exact UInt32.le_of_lt hlt

end DeclaredMethod

/-- A batch fails exactly if the reference does for some declaration. -/
theorem VersionRegistry.BatchAnswer.exists_eq_error_iff {r : VersionRegistry}
    {ms : List DeclaredMethod} (hr : r.Coherent)
    {answer : Except Error (List (List Diagnostic))} (h : r.BatchAnswer ms answer) :
    (∃ e, answer = .error e) ↔ ∃ m ∈ ms, ∃ e, m.reference r.sources = .error e := by
  cases answer with
  | error e =>
    obtain ⟨m, hm, he⟩ := h.exists_reference hr
    exact iff_of_true ⟨e, rfl⟩ ⟨m, hm, e, he⟩
  | ok out =>
    refine iff_of_false (fun he => ?_) fun hm => ?_
    · obtain ⟨_, he⟩ := he
      cases he
    · obtain ⟨m, hm, e, he⟩ := hm
      obtain ⟨ds, hds⟩ := (h.exists_eq_ok_iff hr).mp ⟨out, rfl⟩ m hm
      cases he.symm.trans hds

/-! ## 3. Adding up -/

/-- There are not more lists with an element than elements in all of them. -/
theorem length_filter_not_isEmpty_le {α : Type} (xss : List (List α)) :
    (xss.filter (!·.isEmpty)).length ≤ xss.flatten.length := by
  induction xss with
  | nil => exact Nat.le_refl _
  | cons xs xss ih =>
    rw [List.flatten_cons, List.length_append]
    cases xs with
    | nil => exact Nat.le_trans ih (Nat.le_add_left _ _)
    | cons x xs =>
      rw [List.filter_cons_of_pos rfl, List.length_cons, List.length_cons]
      omega

namespace Command

/-- **The report adds up what was found** for each declaration: all differences in their order, how
    many declarations there are and how many of them have none. The check fails exactly if there is
    a difference, so if not all declarations are clean, and then these are the numbers it tells. -/
structure CheckReport.Sums (c : CheckReport) (found : List (List Diagnostic)) : Prop where
  diagnostics : c.diagnostics = found.flatten
  methods : c.methods = found.length
  passed : c.passed = (found.filter (·.isEmpty)).length
  passed_le : c.passed ≤ c.methods
  differing : c.methods - c.passed = (found.filter (!·.isEmpty)).length
  differing_le : c.methods - c.passed ≤ c.diagnostics.length
  clean_iff : c.diagnostics = [] ↔ c.passed = c.methods
  passes_iff : c.failure? = none ↔ c.diagnostics = []
  failure : ∀ f, c.failure? = some f →
    f = .problems c.diagnostics.length (c.methods - c.passed) c.methods

namespace CheckReport

theorem sums_ofResults (manifest : String) (found : List (List Diagnostic)) :
    (ofResults manifest found).Sums found := by
  have hparts : found.length =
      (found.filter (·.isEmpty)).length + (found.filter (!·.isEmpty)).length :=
    List.length_eq_length_filter_add _
  have hdiffering : found.length - (found.filter (·.isEmpty)).length =
      (found.filter (!·.isEmpty)).length := by omega
  have hle := length_filter_not_isEmpty_le found
  have hclean : found.flatten = [] ↔ (found.filter (·.isEmpty)).length = found.length := by
    rw [List.flatten_eq_nil_iff, List.length_filter_eq_length_iff]
    simp only [List.isEmpty_iff]
  have hpasses : (ofResults manifest found).failure? = none ↔ found.flatten = [] := by
    rw [← List.isEmpty_iff, failure?]
    by_cases hempty : (ofResults manifest found).diagnostics.isEmpty = true
    · rw [if_pos hempty]
      exact iff_of_true rfl hempty
    · rw [if_neg hempty]
      exact iff_of_false (Option.some_ne_none _) hempty
  refine ⟨rfl, rfl, rfl, List.length_filter_le _ _, hdiffering, hdiffering.trans_le hle, hclean,
    hpasses, fun f hf => ?_⟩
  unfold failure? at hf
  split at hf
  · cases hf
  · exact (Option.some.inj hf).symm

/-- The result of a check, by what the batch of its declarations is answered. -/
def ofAnswer (manifest : String) :
    Except Error (List (List Diagnostic)) → Except Failure CheckReport
  | .error e => .error (.aborted e)
  | .ok results => .ok (ofResults manifest results)

theorem evaluate_eq_ofAnswer (r : VersionRegistry) (manifest : String) (ms : List DeclaredMethod) :
    evaluate r manifest ms = ofAnswer manifest (r.validateAll ms).1 := by
  unfold evaluate
  cases (r.validateAll ms).1 <;> rfl

/-- **What a check comes to**, by the declarations and a registry that is new. It is aborted exactly
    if there is no jar for a version that some declaration is meant for. Otherwise it reports what
    each declaration is told alone, in the order of the declarations, and of each in ascending order
    of the versions. -/
structure Tells (files : Files) (r : VersionRegistry) (ms : List DeclaredMethod)
    (result : Except Failure CheckReport) : Prop where
  aborted_iff : (∃ f, result = .error f ∧ f.message = "validation aborted") ↔
    ∃ m ∈ ms, ∃ a ∈ r.archives, m.effectiveRange.contains a.version = true ∧
      ∃ e, files.jar a.path = .error e
  aborted : ∀ f, result = .error f →
    ∃ version path cause, f = .aborted (.archiveOpen version path cause)
  report : ∀ c, result = .ok c → ∃ found : List (List Diagnostic),
    ms.map (fun m => (r.validate m).1) = found.map .ok ∧
    (∀ ds ∈ found, ds.Pairwise fun d d' => d.version ≤ d'.version) ∧ c.Sums found

end CheckReport

section Check

variable {files : Files} {sdks path text : String} {r : VersionRegistry}

/-- A declaration is aborted exactly where there is no jar for one of its versions. -/
theorem exists_reference_error_iff_of_ofFile (hr : VersionRegistry.ofFile files sdks = .ok r)
    (m : DeclaredMethod) : (∃ e, m.reference r.sources = .error e) ↔
      ∃ a ∈ r.archives, m.effectiveRange.contains a.version = true ∧
        ∃ e, files.jar a.path = .error e := by
  rw [DeclaredMethod.exists_reference_error_iff, VersionRegistry.sources]
  constructor
  · intro h
    obtain ⟨_, hs, hcontains, hfailure⟩ := h
    obtain ⟨a, ha, rfl⟩ := List.mem_map.mp hs
    exact ⟨a, ha, hcontains, (VersionRegistry.failure?_ne_none_iff_of_ofFile hr ha).mp hfailure⟩
  · intro h
    obtain ⟨a, ha, hcontains, hjar⟩ := h
    exact ⟨a.source, List.mem_map_of_mem ha, hcontains,
      (VersionRegistry.failure?_ne_none_iff_of_ofFile hr ha).mpr hjar⟩

/-- **Whatever a batch is answered, the check tells it.** -/
theorem tells_ofAnswer (hr : VersionRegistry.ofFile files sdks = .ok r) {ms : List DeclaredMethod}
    {answer : Except Error (List (List Diagnostic))} (h : r.BatchAnswer ms answer) :
    CheckReport.Tells files r ms (CheckReport.ofAnswer path answer) := by
  have hcoherent := VersionRegistry.coherent_of_ofFile hr
  refine ⟨?_, fun f hf => ?_, fun c hc => ?_⟩
  · have haborted : (∃ f, CheckReport.ofAnswer path answer = .error f ∧
        f.message = "validation aborted") ↔ ∃ e, answer = .error e := by
      cases answer with
      | error e => exact ⟨fun _ => ⟨e, rfl⟩, fun _ => ⟨_, rfl, rfl⟩⟩
      | ok out =>
        refine iff_of_false (fun hf => ?_) fun he => ?_
        · obtain ⟨_, hf, -⟩ := hf
          cases hf
        · obtain ⟨_, he⟩ := he
          cases he
    rw [haborted, h.exists_eq_error_iff hcoherent]
    exact exists_congr fun m => and_congr_right fun _ =>
      exists_reference_error_iff_of_ofFile hr m
  · cases answer with
    | ok out => cases hf
    | error e =>
      cases hf
      obtain ⟨m, -, he⟩ := h.exists_reference hcoherent
      obtain ⟨version, jarPath, cause, rfl⟩ := DeclaredMethod.archiveOpen_of_reference he
      exact ⟨version, jarPath, cause, rfl⟩
  · cases answer with
    | error e => cases hc
    | ok out =>
      cases hc
      have hmap := h.map_reference hcoherent
      refine ⟨out, ?_, fun ds hds => ?_, CheckReport.sums_ofResults path out⟩
      · rw [← hmap]
        exact List.map_congr_left fun m _ => hcoherent.validate_fst m
      · have hmem : (.ok ds : Except Error (List Diagnostic)) ∈
            ms.map fun m => m.reference r.sources := hmap ▸ List.mem_map_of_mem hds
        obtain ⟨m, -, hm⟩ := List.mem_map.mp hmem
        exact DeclaredMethod.pairwise_version_of_reference r.pairwise_version_sources hm

/-- The check of files answers what their batch is answered. -/
theorem ofFiles_eq_ofAnswer {manifest : Manifest} (hr : VersionRegistry.ofFile files sdks = .ok r)
    (htext : files.text path = .ok text) (hmanifest : Manifest.parse? text = some manifest) :
    CheckReport.ofFiles files sdks path =
      CheckReport.ofAnswer path (r.validateAll manifest.methods).1 := by
  unfold CheckReport.ofFiles
  rw [hr]
  simp only [htext, hmanifest]
  exact CheckReport.evaluate_eq_ofAnswer r path manifest.methods

/-- A check passes exactly if every declaration alone is told nothing. -/
theorem passes_iff_of_tells (hr : VersionRegistry.ofFile files sdks = .ok r)
    {ms : List DeclaredMethod} {result : Except Failure CheckReport}
    (h : CheckReport.Tells files r ms result) :
    (∃ c, result = .ok c ∧ c.failure? = none) ↔ ∀ m ∈ ms, (r.validate m).1 = .ok [] := by
  have hcoherent := VersionRegistry.coherent_of_ofFile hr
  cases result with
  | error f =>
    refine ⟨fun hc => ?_, fun hall => ?_⟩
    · obtain ⟨_, hc, -⟩ := hc
      cases hc
    · obtain ⟨_, _, _, rfl⟩ := h.aborted f rfl
      obtain ⟨m, hm, habort⟩ := h.aborted_iff.mp ⟨_, rfl, rfl⟩
      obtain ⟨e, he⟩ := (exists_reference_error_iff_of_ofFile hr m).mpr habort
      have hclean := hall m hm
      rw [hcoherent.validate_fst m, he] at hclean
      cases hclean
  | ok c =>
    obtain ⟨found, hfound, -, hsums⟩ := h.report c rfl
    simp only [Except.ok.injEq, exists_eq_left']
    rw [hsums.passes_iff, hsums.diagnostics, List.flatten_eq_nil_iff]
    constructor
    · intro hall m hm
      have hmem : (r.validate m).1 ∈ found.map .ok :=
        hfound ▸ List.mem_map_of_mem (f := fun m => (r.validate m).1) hm
      obtain ⟨ds, hds, heq⟩ := List.mem_map.mp hmem
      rw [← heq, hall ds hds]
    · intro hall ds hds
      have hmem : (.ok ds : Except Error (List Diagnostic)) ∈
          ms.map fun m => (r.validate m).1 := hfound ▸ List.mem_map_of_mem hds
      obtain ⟨m, hm, heq⟩ := List.mem_map.mp hmem
      exact Except.ok.inj (heq.symm.trans (hall m hm))

/-- The end of the program is that of the check. -/
theorem run_check (files : Files) (isJson : Bool) (sdks path : String) :
    (Invocation.mk isJson (.check sdks path)).run files =
      match CheckReport.ofFiles files sdks path with
      | .error f => .failed f
      | .ok c => .done (printed isJson c.json c.text) c.failure? := rfl

/-- The program exits with zero exactly if the check has a report that passes. -/
theorem exit_check_eq_zero_iff {isJson : Bool} :
    ((Invocation.mk isJson (.check sdks path)).run files).exit = 0 ↔
      ∃ c, CheckReport.ofFiles files sdks path = .ok c ∧ c.failure? = none := by
  rw [run_check]
  cases CheckReport.ofFiles files sdks path with
  | error f =>
    refine iff_of_false Nat.one_ne_zero fun h => ?_
    obtain ⟨_, hc, -⟩ := h
    cases hc
  | ok c =>
    simp only [Except.ok.injEq, exists_eq_left']
    cases c.failure? with
    | none => exact iff_of_true rfl rfl
    | some f => exact iff_of_false Nat.one_ne_zero (Option.some_ne_none f)

end Check

end Command

open Command

/-- **What a check comes to.** From a properties file that is read and a manifest that is read as
    the declarations written in it, the check is aborted exactly if an archive cannot be opened that
    one of them is meant for; otherwise it tells what each of them is told alone, in order, and the
    numbers add up. That holds in whatever order the batch is worked off. The program exits with
    zero exactly if every declaration alone is told nothing; else it reports the failure. -/
theorem check_tells_differences {files : Files} {sdks path text : String} {r : VersionRegistry}
    {manifest : Manifest} (hr : VersionRegistry.ofFile files sdks = .ok r)
    (htext : files.text path = .ok text) (hmanifest : Manifest.parse? text = some manifest) :
    Manifest.Written text manifest.methods ∧
    (∀ answer, r.BatchAnswer manifest.methods answer →
      CheckReport.Tells files r manifest.methods (CheckReport.ofAnswer path answer)) ∧
    CheckReport.Tells files r manifest.methods (CheckReport.ofFiles files sdks path) ∧
    ∀ isJson,
      (((Invocation.mk isJson (.check sdks path)).run files).exit = 0 ↔
        ∀ m ∈ manifest.methods, (r.validate m).1 = .ok []) ∧
      (∀ f, CheckReport.ofFiles files sdks path = .error f →
        (Invocation.mk isJson (.check sdks path)).run files = ⟨1, "", some f.report⟩) ∧
      ∀ c, CheckReport.ofFiles files sdks path = .ok c →
        (((Invocation.mk isJson (.check sdks path)).run files).exit = 0 ↔ c.diagnostics = []) ∧
        ((Invocation.mk isJson (.check sdks path)).run files).error =
          c.failure?.map Failure.report := by
  have htells : CheckReport.Tells files r manifest.methods
      (CheckReport.ofFiles files sdks path) := by
    rw [ofFiles_eq_ofAnswer hr htext hmanifest]
    exact tells_ofAnswer hr .inOrder
  refine ⟨Manifest.parse?_eq_some_iff.mp hmanifest, fun answer h => tells_ofAnswer hr h, htells,
    fun isJson => ⟨exit_check_eq_zero_iff.trans (passes_iff_of_tells hr htells), ?_, ?_⟩⟩
  · intro f hf
    rw [run_check, hf]
    rfl
  · intro c hc
    obtain ⟨found, -, -, hsums⟩ := htells.report c hc
    constructor
    · rw [exit_check_eq_zero_iff, hc, ← hsums.passes_iff]
      simp only [Except.ok.injEq, exists_eq_left']
    · rw [run_check, hc]
      show (Outcome.done _ c.failure?).error = _
      cases c.failure? <;> rfl

/-- An archive without entries. -/
def emptyJar : Bytes := [0x50, 0x4B, 5, 6, 0, 0, 0, 0, 0, 0, 0, 0, 0, 0, 0, 0, 0, 0, 0, 0, 0, 0]

/-- Two versions. -/
def twoVersions : String := "21=a.jar\n23=b.jar\n"

/-- A declaration up to version 22. -/
def upTo22 : String :=
  "\x7b\"methods\":[\x7b\"class\":\"a.B\",\"name\":\"m\",\"max_sdk\":22\x7d]\x7d"

/-- The same for all versions. -/
def forAll : String := "\x7b\"methods\":[\x7b\"class\":\"a.B\",\"name\":\"m\"\x7d]\x7d"

/-- The properties of two versions, of which one has an archive, and two manifests. -/
def oneJar : Files := fun path =>
  if path = "sdks.properties" then .ok (.file twoVersions.toUTF8.toList)
  else if path = "a.jar" then .ok (.file emptyJar)
  else if path = "old.json" then .ok (.file upTo22.toUTF8.toList)
  else if path = "all.json" then .ok (.file forAll.toUTF8.toList)
  else .error .notFound

theorem jar_oneJar : oneJar.jar "a.jar" = .ok ⟨emptyJar, #[], ∅⟩ := rfl

/-- The registry of the two versions. -/
theorem exists_ofFile_oneJar : ∃ r, VersionRegistry.ofFile oneJar "sdks.properties" = .ok r ∧
    r.archives = [.new 21 "a.jar" oneJar.loader, .new 23 "b.jar" oneJar.loader] := by
  have htext : oneJar.text "sdks.properties" = .ok twoVersions :=
    eq_ok_of_toOption (by decide +kernel)
  unfold VersionRegistry.ofFile
  rw [htext]
  exact ⟨_, rfl, rfl⟩

/-- Up to 22, a declaration is told that its class is not in the archive without entries. -/
theorem reference_oneJar : (DeclaredMethod.plain "a.B" (some 22)).reference
    [⟨21, "a.jar", oneJar.loader⟩, ⟨23, "b.jar", oneJar.loader⟩] =
      .ok [.classNotFound "a.B" 21] := by
  have hopen : oneJar.loader "a.jar" = .ok (Jar.read ⟨emptyJar, #[], ∅⟩) := rfl
  have hclass : ArchiveSource.class? ⟨21, "a.jar", oneJar.loader⟩ "a.B" = none := by
    unfold ArchiveSource.class? ArchiveSource.entryAnswer
    dsimp only
    rw [hopen]
    show ArchiveSource.decoded (Jar.read _ _) = none
    rw [Jar.read, Jar.entry?, Std.HashMap.getElem?_empty]
    rfl
  rw [DeclaredMethod.reference_of_open]
  · show Except.ok (DeclaredMethod.differences _ 21
      (ArchiveSource.class? ⟨21, "a.jar", oneJar.loader⟩ "a.B") ++ []) = _
    rw [hclass]
    rfl
  · intro s hs
    rw [List.mem_singleton.mp (show s ∈ [(⟨21, "a.jar", oneJar.loader⟩ : ArchiveSource)] from hs)]
    rfl

/-- The declaration up to 22 is told about version 21, and the other one is aborted at 23. -/
theorem check_oneJar :
    (∃ c, CheckReport.ofFiles oneJar "sdks.properties" "old.json" = .ok c ∧
      c.diagnostics = [.classNotFound "a.B" 21] ∧ c.failure? = some (.problems 1 1 1)) ∧
    ((Invocation.mk true (.check "sdks.properties" "old.json")).run oneJar).exit ≠ 0 ∧
    ∃ f, CheckReport.ofFiles oneJar "sdks.properties" "all.json" = .error f ∧
      f.message = "validation aborted" := by
  obtain ⟨r, hr, harchives⟩ := exists_ofFile_oneJar
  have hold : oneJar.text "old.json" = .ok upTo22 := eq_ok_of_toOption (by decide +kernel)
  have hall : oneJar.text "all.json" = .ok forAll := eq_ok_of_toOption (by decide +kernel)
  obtain ⟨-, -, htells, hexit⟩ := check_tells_differences hr hold
    (show Manifest.parse? upTo22 = some ⟨[.plain "a.B" (some 22)]⟩ by decide +kernel)
  obtain ⟨-, -, haborts, -⟩ := check_tells_differences hr hall
    (show Manifest.parse? forAll = some ⟨[.plain "a.B" none]⟩ by decide +kernel)
  have hvalidate : (r.validate (.plain "a.B" (some 22))).1 = .ok [.classNotFound "a.B" 21] := by
    rw [(VersionRegistry.coherent_of_ofFile hr).validate_fst, VersionRegistry.sources, harchives]
    exact reference_oneJar
  refine ⟨?_, fun hzero => ?_, ?_⟩
  · cases hresult : CheckReport.ofFiles oneJar "sdks.properties" "old.json" with
    | error f =>
      -- only version 21 is in the range, and its archive is there
      obtain ⟨_, _, _, rfl⟩ := htells.aborted f hresult
      obtain ⟨m, hm, a, ha, hcontains, e, he⟩ := htells.aborted_iff.mp ⟨_, hresult, rfl⟩
      rw [List.mem_singleton.mp hm] at hcontains
      rw [harchives] at ha
      rcases List.mem_cons.mp ha with rfl | ha
      · cases jar_oneJar.symm.trans he
      · rw [List.mem_singleton.mp ha] at hcontains
        exact absurd hcontains (by decide)
    | ok c =>
      obtain ⟨found, hfound, -, hsums⟩ := htells.report c hresult
      rw [List.map_singleton, hvalidate] at hfound
      obtain rfl : found = [[.classNotFound "a.B" 21]] :=
        (List.map_inj_right fun _ _ => Except.ok.inj).mp hfound.symm
      refine ⟨c, rfl, hsums.diagnostics, ?_⟩
      cases hfailure : c.failure? with
      | none => cases hsums.diagnostics.symm.trans (hsums.passes_iff.mp hfailure)
      | some f =>
        rw [hsums.failure f hfailure, hsums.differing, hsums.diagnostics, hsums.methods]
        rfl
  · cases hvalidate.symm.trans ((hexit true).1.mp hzero _ List.mem_cons_self)
  · refine haborts.aborted_iff.mpr ⟨_, List.mem_cons_self, .new 23 "b.jar" oneJar.loader, ?_,
      by decide, .file .notFound, rfl⟩
    rw [harchives]
    exact List.mem_cons_of_mem _ List.mem_cons_self

end SdkConformance
