import SdkConformance.Proofs.Declaration.BatchSchedules
import SdkConformance.Proofs.Sdk.ArchiveCounts

/-!
# Which archives a validation touches

A validation goes through the versions of its range in ascending order and stops at the first that
cannot be opened. The versions up to there are reached by it: the class of the declaration is looked
up in them. All other archives stay as they are.

* `SdkRange.Reaches`: a range reaches a version over some sources;
* `Coherent.archives_run`: what one validation does to the archives of a registry; `archives_after`
  is the same for a whole run, in which every archive meets the look-ups of those that reached it;
* `ArchiveSource.Visited`: the accounts of an archive in which some classes were looked up;
* `Batch.Looked.step`, `Batch.Looked.run`: the look-ups of a batch, in any schedule;
* `visited_after_validation`: the accounts of every archive after any run, and after a batch.
-/

namespace SdkConformance

/-! ## 1. Versions that are reached -/

/-- The version is one of the sources and in the range, and no lower one in the range fails to
    open. -/
def SdkRange.Reaches (range : SdkRange) (sources : List ArchiveSource) (version : UInt32) : Prop :=
  version ∈ sources.map (·.version) ∧ range.contains version = true ∧
    ∀ s ∈ sources, s.version < version → range.contains s.version = true → s.failure? = none

instance (range : SdkRange) (sources : List ArchiveSource) (version : UInt32) :
    Decidable (range.Reaches sources version) :=
  inferInstanceAs (Decidable (_ ∧ _ ∧ _))

/-- Only which sources there are matters, not their order. -/
theorem SdkRange.reaches_congr (range : SdkRange) {sources sources' : List ArchiveSource}
    (h : sources.Perm sources') (version : UInt32) :
    range.Reaches sources version ↔ range.Reaches sources' version := by
  unfold Reaches
  rw [(h.map _).mem_iff]
  simp only [h.mem_iff]

theorem SdkRange.contains_exactly (v w : UInt32) :
    (SdkRange.exactly v).contains w = (w == v) := by
  simp only [contains, exactly, Option.all_some, ← Bool.decide_and, beq_eq_decide]
  exact decide_eq_decide.mpr ⟨fun h => UInt32.le_antisymm h.2 h.1,
    fun h => h ▸ ⟨UInt32.le_refl _, UInt32.le_refl _⟩⟩

/-- The range of one version reaches this version alone. -/
theorem SdkRange.reaches_exactly_iff {sources : List ArchiveSource} {v w : UInt32}
    (hw : w ∈ sources.map (·.version)) : (SdkRange.exactly v).Reaches sources w ↔ w = v := by
  unfold Reaches
  simp only [contains_exactly, beq_iff_eq]
  refine ⟨fun h => h.2.1, fun h => ⟨hw, h, fun s _ hlt hs => ?_⟩⟩
  rw [hs, h] at hlt
  exact absurd hlt (UInt32.lt_irrefl v)

namespace VersionRegistry

/-- Before an archive behind the first one, the first one comes and then the others. -/
theorem forall_before_cons_iff {P : ReferenceArchive → Prop} {x a : ReferenceArchive}
    {xs : List ReferenceArchive} (hlt : x.version < a.version) :
    (∀ b ∈ x :: xs, b.version < a.version → P b) ↔ P x ∧ ∀ b ∈ xs, b.version < a.version → P b := by
  rw [List.forall_mem_cons]
  exact and_congr_left' ⟨fun h => h hlt, fun h _ => h⟩

/-- A visit steps the selected archives up to the first that fails, and no other one. -/
theorem visitArchives_snd {α : Type} (selected : UInt32 → Bool)
    (step : ReferenceArchive → Except Error α × ReferenceArchive) {as : List ReferenceArchive}
    (has : Ascending as) :
    (visitArchives selected step as).2 = as.map fun a =>
      if selected a.version = true ∧ ∀ b ∈ as, b.version < a.version →
        selected b.version = true → (step b).1.isOk = true then (step a).2 else a := by
  induction as with
  | nil => rfl
  | cons x xs ih =>
    obtain ⟨hx, hxs⟩ := List.pairwise_cons.mp has
    have hlt : ∀ a ∈ xs, x.version < a.version := fun a ha => hx _ (List.mem_map_of_mem ha)
    have hhead : ∀ b ∈ x :: xs, b.version < x.version →
        selected b.version = true → (step b).1.isOk = true := by
      intro b hb hbx
      rcases List.mem_cons.mp hb with rfl | hb
      · exact absurd hbx (UInt32.lt_irrefl _)
      · exact absurd hbx (UInt32.lt_asymm (hlt b hb))
    -- where the first one does not fail, the others are visited as if they were alone
    have hgoesOn : (selected x.version = true → (step x).1.isOk = true) →
        (visitArchives selected step xs).2 = xs.map fun a =>
          if selected a.version = true ∧ ∀ b ∈ x :: xs, b.version < a.version →
            selected b.version = true → (step b).1.isOk = true then (step a).2 else a := by
      intro hfirst
      rw [ih hxs]
      refine List.map_congr_left fun a ha => ?_
      simp only [forall_before_cons_iff (hlt a ha), and_iff_right hfirst]
    rw [List.map_cons]
    simp only [visitArchives]
    by_cases hsel : selected x.version = true
    · rw [if_pos hsel, if_pos ⟨hsel, hhead⟩]
      cases hstep : step x with
      | mk result y =>
        cases result with
        | error e =>
          have hstays : ∀ a ∈ xs, (if selected a.version = true ∧ ∀ b ∈ x :: xs,
              b.version < a.version → selected b.version = true → (step b).1.isOk = true
              then (step a).2 else a) = a := by
            intro a ha
            refine if_neg fun h => ?_
            have hok := ((forall_before_cons_iff (hlt a ha)).mp h.2).1 hsel
            rw [hstep] at hok
            cases hok
          show y :: xs = y :: xs.map _
          rw [List.map_congr_left hstays, List.map_id']
        | ok answer =>
          refine congrArg (y :: ·) (hgoesOn fun _ => ?_)
          rw [hstep]
          rfl
    · rw [if_neg hsel, if_neg fun h => hsel h.1]
      exact congrArg (x :: ·) (hgoesOn fun h => absurd h hsel)

end VersionRegistry

/-- Against one version, validation answers unless the archive cannot be opened. -/
theorem ReferenceArchive.Coherent.isOk_validate_iff {a : ReferenceArchive} (h : a.Coherent)
    (m : DeclaredMethod) : (a.validate m).1.isOk = true ↔ a.source.failure? = none := by
  rw [h.validate_fst m]
  cases a.source.failure? with
  | none => exact ⟨fun _ => rfl, fun _ => rfl⟩
  | some e => exact ⟨nofun, nofun⟩

namespace VersionRegistry

variable {r : VersionRegistry}

/-- **A validation looks the class up in every version that its range reaches**, and leaves all
    other archives as they are. -/
theorem Coherent.archives_visit_validate (hr : r.Coherent) (m : DeclaredMethod)
    {selected : UInt32 → Bool} {range : SdkRange} (hsel : ∀ v, selected v = range.contains v) :
    (r.visit selected (·.validate m) (ReferenceArchive.version_validate m)).2.archives =
      r.archives.map fun a =>
        if range.Reaches r.sources a.version then (a.lookupClass m.className).2 else a := by
  rw [archives_visit, visitArchives_snd _ _ r.ascending]
  refine List.map_congr_left fun a ha => ?_
  have hmem : a.version ∈ r.sources.map (·.version) :=
    List.mem_map.mpr ⟨a.source, List.mem_map_of_mem ha, rfl⟩
  have hreaches : (selected a.version = true ∧ ∀ b ∈ r.archives, b.version < a.version →
      selected b.version = true → (b.validate m).1.isOk = true) ↔
      range.Reaches r.sources a.version := by
    unfold SdkRange.Reaches
    unfold sources at hmem ⊢
    rw [and_iff_right hmem, List.forall_mem_map, hsel]
    refine and_congr_right' (forall₂_congr fun b hb => ?_)
    rw [hsel, (hr b hb).isOk_validate_iff m]
    rfl
  simp only [hreaches, ReferenceArchive.validate_snd]

/-- Against one version, the class is looked up in its archive and nowhere else. -/
theorem Coherent.archives_validateVersion (hr : r.Coherent) (m : DeclaredMethod) (v : UInt32) :
    (r.validateVersion m v).2.archives =
      r.archives.map fun a => if a.version = v then (a.lookupClass m.className).2 else a := by
  have hvisit := hr.archives_visit_validate m fun w => (SdkRange.contains_exactly v w).symm
  rw [show (r.validateVersion m v).2.archives = _ from hvisit]
  refine List.map_congr_left fun a ha => ?_
  have hmem : a.version ∈ r.sources.map (·.version) :=
    List.mem_map.mpr ⟨a.source, List.mem_map_of_mem ha, rfl⟩
  simp only [SdkRange.reaches_exactly_iff hmem]

end VersionRegistry

/-! ## 2. Validations one after the other -/

/-- A request to validate a declaration: over its effective range, over any range, or against one
    version. -/
inductive ValidationCall where
  | validate (m : DeclaredMethod)
  | validateRange (m : DeclaredMethod) (range : SdkRange)
  | validateVersion (m : DeclaredMethod) (version : UInt32)

namespace ValidationCall

def method : ValidationCall → DeclaredMethod
  | validate m => m
  | validateRange m _ => m
  | validateVersion m _ => m

/-- The versions that are asked for. -/
def range : ValidationCall → SdkRange
  | validate m => m.effectiveRange
  | validateRange _ range => range
  | validateVersion _ version => .exactly version

/-- The request as one to a registry. -/
def toCall : ValidationCall → RegistryCall
  | validate m => .validate m
  | validateRange m range => .validateRange m range
  | validateVersion m version => .validateVersion m version

/-- The request reaches a version over some sources. -/
def Reaches (call : ValidationCall) (sources : List ArchiveSource) (version : UInt32) : Prop :=
  call.range.Reaches sources version

instance (call : ValidationCall) (sources : List ArchiveSource) (version : UInt32) :
    Decidable (call.Reaches sources version) :=
  inferInstanceAs (Decidable (call.range.Reaches sources version))

/-- The class names of the requests that reach a version, one after the other. -/
def namesAt (calls : List ValidationCall) (sources : List ArchiveSource) (version : UInt32) :
    List String :=
  (calls.filter fun call => call.Reaches sources version).map (·.method.className)

theorem namesAt_congr {sources sources' : List ArchiveSource} (h : sources.Perm sources')
    (calls : List ValidationCall) (version : UInt32) :
    namesAt calls sources version = namesAt calls sources' version :=
  congrArg (List.map _) (List.filter_congr fun call _ =>
    decide_eq_decide.mpr (call.range.reaches_congr h version))

end ValidationCall

/-- The look-ups of some classes. -/
def lookups (names : List String) : List ArchiveCall := names.map .lookup

namespace VersionRegistry

variable {r : VersionRegistry}

/-- **A step**: a request looks its class up where it reaches. -/
theorem Coherent.archives_run (hr : r.Coherent) (call : ValidationCall) :
    (call.toCall.run r).archives = r.archives.map fun a =>
      if call.Reaches r.sources a.version then (a.lookupClass call.method.className).2 else a := by
  cases call with
  | validate m =>
    exact hr.archives_visit_validate m m.effectiveRange.selects_eq_contains
  | validateRange m range => exact hr.archives_visit_validate m range.selects_eq_contains
  | validateVersion m version =>
    exact hr.archives_visit_validate m fun v => (SdkRange.contains_exactly version v).symm

/-- **A run**: every archive meets the look-ups of the requests that reach it. -/
theorem Coherent.archives_after (hr : r.Coherent) (calls : List ValidationCall) :
    (r.after (calls.map (·.toCall))).archives = r.archives.map fun a =>
      a.after (lookups (ValidationCall.namesAt calls r.sources a.version)) := by
  induction calls generalizing r with
  | nil => exact (List.map_id _).symm
  | cons call calls ih =>
    obtain ⟨hsources, hcoherent⟩ := r.follows_run call.toCall
    rw [List.map_cons, after, ih (hcoherent hr), hr.archives_run, List.map_map, hsources]
    refine List.map_congr_left fun a _ => ?_
    simp only [Function.comp_apply, ValidationCall.namesAt, List.filter_cons, decide_eq_true_eq]
    by_cases h : call.Reaches r.sources a.version
    · rw [if_pos h, if_pos h, ReferenceArchive.version_lookupClass]
      rfl
    · rw [if_neg h, if_neg h]

end VersionRegistry

/-! ## 3. Accounts -/

/-- **The accounts of the archive of a source in which classes of these names were looked up.**
    Without any it is as it was made. Else it was opened once; if that succeeded, it keeps these
    names and has read an entry for each of them, and if not, it keeps and has read nothing. -/
structure ArchiveSource.Visited (s : ArchiveSource) (names : List String) (a : ReferenceArchive) :
    Prop where
  untouched : names = [] → a = s.archive
  opens : names ≠ [] → a.opens = 1
  classes : names ≠ [] → s.failure? = none → ∀ n, n ∈ a.classes ↔ n ∈ names
  cached : names ≠ [] → s.failure? = none → a.cachedClasses = names.toFinset.card
  reads : names ≠ [] → s.failure? = none → a.reads = a.cachedClasses
  lost : names ≠ [] → s.failure? ≠ none → a.reads = 0 ∧ a.cachedClasses = 0

namespace ReferenceArchive

/-- Look-ups keep the accounts of an archive that is open. -/
theorem Counts.lookups {a : ReferenceArchive} {names : List String} {files : Nat}
    (h : a.Counts names files) (more : List String) :
    (a.after (lookups more)).Counts (names ++ more) files := by
  induction more generalizing a names with
  | nil =>
    rw [List.append_nil]
    exact h
  | cons n more ih =>
    have hnext := ih (h.run (.lookup n)).2
    rwa [ArchiveCall.lookedUp, List.append_assoc] at hnext

/-- Look-ups leave an archive that could not be opened as it is. -/
theorem Sealed.lookups {a : ReferenceArchive} {cause : String} (h : a.Sealed cause)
    (names : List String) : a.after (lookups names) = a := by
  induction names with
  | nil => rfl
  | cons n names ih =>
    show ((ArchiveCall.lookup n).run a).2.after (SdkConformance.lookups names) = a
    rw [h.run, ih]

/-- The first look-up opens the archive. -/
theorem after_lookups_cons (s : ArchiveSource) (n : String) (names : List String) :
    s.archive.after (lookups (n :: names)) =
      s.archive.ensureOpen.2.after (lookups (n :: names)) := by
  have hrun := run_ensureOpen (getElem?_classes_archive s ⟨s.loader, fun _ => .ok none⟩) (.lookup n)
  show ((ArchiveCall.lookup n).run s.archive).2.after _ = _
  rw [show (ArchiveCall.lookup n).run s.archive = _ from hrun.symm]
  rfl

end ReferenceArchive

namespace ArchiveSource

variable {s : ArchiveSource}

theorem failure?_of_ok {reader : EntryReader} (h : s.loader s.path = .ok reader) :
    s.failure? = none := by
  unfold failure?
  rw [h]

theorem failure?_of_error {e : Error} (h : s.loader s.path = .error e) :
    s.failure? = some (.archiveOpen s.version s.path e.asCause) := by
  unfold failure?
  rw [h]

/-- **Look-ups in an archive that was not opened yet keep its accounts.** -/
theorem visited_lookups (s : ArchiveSource) (names : List String) :
    s.Visited names (s.archive.after (lookups names)) := by
  cases names with
  | nil => exact ⟨fun _ => rfl, nofun, nofun, nofun, nofun, nofun⟩
  | cons n names =>
    rw [ReferenceArchive.after_lookups_cons]
    cases hloader : s.loader s.path with
    | ok reader =>
      have hcounts : (s.archive.ensureOpen.2.after (lookups (n :: names))).Counts (n :: names) 0 :=
        (ReferenceArchive.counts_ensureOpen (t := ⟨⟨s.loader, fun _ => .ok none⟩, .opening⟩)
          hloader).lookups (n :: names)
      exact ⟨nofun, fun _ => hcounts.opens, fun _ _ => hcounts.classes,
        fun _ _ => hcounts.cachedClasses_eq, fun _ _ => hcounts.reads,
        fun _ h => absurd (failure?_of_ok hloader) h⟩
    | error e =>
      have hsealed : s.archive.ensureOpen.2.Sealed e.asCause :=
        ReferenceArchive.sealed_ensureOpen (t := ⟨⟨s.loader, fun _ => .ok none⟩, .opening⟩) hloader
      have hfailure : s.failure? ≠ none := by
        rw [failure?_of_error hloader]
        nofun
      rw [hsealed.lookups]
      exact ⟨nofun, fun _ => hsealed.opens, fun _ h => absurd h hfailure,
        fun _ h => absurd h hfailure, fun _ h => absurd h hfailure,
        fun _ _ => ⟨hsealed.reads, hsealed.cachedClasses_eq⟩⟩

/-- Which names were looked up decides, not in which order or how often. -/
theorem Visited.congr {names names' : List String} {a : ReferenceArchive}
    (h : s.Visited names a) (hnames : ∀ n, n ∈ names ↔ n ∈ names') : s.Visited names' a := by
  have hset : names.toFinset = names'.toFinset := by
    ext n
    rw [List.mem_toFinset, List.mem_toFinset, hnames]
  have hnil : names = [] ↔ names' = [] := by
    rw [List.eq_nil_iff_forall_not_mem, List.eq_nil_iff_forall_not_mem]
    exact forall_congr' fun n => not_congr (hnames n)
  refine ⟨fun h' => h.untouched (hnil.mpr h'), fun h' => h.opens (hnil.not.mpr h'),
    fun h' hopen n => (h.classes (hnil.not.mpr h') hopen n).trans (hnames n), fun h' hopen => ?_,
    fun h' => h.reads (hnil.not.mpr h'), fun h' => h.lost (hnil.not.mpr h')⟩
  rw [h.cached (hnil.not.mpr h') hopen, hset]

end ArchiveSource

/-! ## 4. Batches -/

theorem ReferenceArchive.after_lookups_append (a : ReferenceArchive) (names more : List String) :
    a.after (lookups (names ++ more)) = (a.after (lookups names)).after (lookups more) := by
  induction names generalizing a with
  | nil => rfl
  | cons n names ih => exact ih (a.lookupClass n).2

/-- Against one version, the class is looked up in its archive after those before. -/
theorem VersionRegistry.Coherent.archives_validateVersion_of_lookups {r : VersionRegistry}
    (hr : r.Coherent) {sources : List ArchiveSource} {names : UInt32 → List String}
    (h : r.archives = sources.map fun s => s.archive.after (lookups (names s.version)))
    (m : DeclaredMethod) (v : UInt32) :
    (r.validateVersion m v).2.archives = sources.map fun s =>
      s.archive.after (lookups (Function.update names v (names v ++ [m.className]) s.version)) := by
  rw [hr.archives_validateVersion, h, List.map_map]
  refine List.map_congr_left fun s _ => ?_
  have hversion : (s.archive.after (lookups (names s.version))).version = s.version :=
    congrArg ArchiveSource.version (ReferenceArchive.source_after _ _)
  rw [Function.comp_apply, hversion]
  by_cases hv : s.version = v
  · subst hv
    rw [if_pos rfl, Function.update_self, ReferenceArchive.after_lookups_append]
    rfl
  · rw [if_neg hv, Function.update_of_ne hv]

/-- One more element has the property, where the one whose place it takes has it at most with
    it. -/
theorem exists_mem_set_iff {α : Type} {P : α → Prop} {xs : List α} {i : Nat} {x y : α}
    (hx : xs[i]? = some x) (hxy : P x → P y) :
    (∃ a ∈ xs.set i y, P a) ↔ P y ∨ ∃ a ∈ xs, P a := by
  obtain ⟨hi, -⟩ := List.getElem?_eq_some_iff.mp hx
  constructor
  · intro h
    obtain ⟨a, ha, hPa⟩ := h
    rcases List.mem_or_eq_of_mem_set ha with ha | rfl
    · exact Or.inr ⟨a, ha, hPa⟩
    · exact Or.inl hPa
  · intro h
    rcases h with hPy | ⟨a, ha, hPa⟩
    · exact ⟨y, List.mem_set hi y, hPy⟩
    · obtain ⟨j, hj⟩ := List.mem_iff_getElem?.mp ha
      by_cases hij : i = j
      · subst hij
        cases hx.symm.trans hj
        exact ⟨y, List.mem_set hi y, hxy hPa⟩
      · refine ⟨a, List.mem_of_getElem? (i := j) ?_, hPa⟩
        rw [List.getElem?_set_ne hij, hj]

/-- The declaration is meant for the version, which is not ahead of the check any more. -/
def Check.Behind (c : Check) (version : UInt32) : Prop :=
  c.method.effectiveRange.contains version = true ∧ version ∉ c.ahead

/-- A check that goes on by one version has that one behind it, too. -/
theorem Check.behind_next_iff {m : DeclaredMethod} {v : UInt32} {vs : List UInt32}
    {found found' : Except Error (List Diagnostic)} (hcontains : m.effectiveRange.contains v = true)
    (hnext : v ∉ vs) (w : UInt32) :
    Check.Behind ⟨m, vs, found'⟩ w ↔ w = v ∨ Check.Behind ⟨m, v :: vs, found⟩ w := by
  unfold Behind
  rw [List.mem_cons, not_or]
  constructor
  · intro h
    by_cases hw : w = v
    · exact Or.inl hw
    · exact Or.inr ⟨h.1, hw, h.2⟩
  · intro h
    rcases h with rfl | h
    · exact ⟨hcontains, hnext⟩
    · exact ⟨h.1, h.2.2⟩

namespace Batch

variable {sources : List ArchiveSource} {ms : List DeclaredMethod} {b : Batch}

/-- **The look-ups of a batch**: in every archive the classes of those declarations were looked up
    that have it behind them. -/
def Looked (sources : List ArchiveSource) (b : Batch) : Prop :=
  ∃ names : UInt32 → List String,
    b.registry.archives = sources.map (fun s => s.archive.after (lookups (names s.version))) ∧
    ∀ s ∈ sources, ∀ n, n ∈ names s.version ↔
      ∃ c ∈ b.checks, c.Behind s.version ∧ c.method.className = n

theorem looked_start {r : VersionRegistry} (hr : r.archives = sources.map (·.archive))
    (ms : List DeclaredMethod) : (start r ms).Looked sources := by
  refine ⟨fun _ => [], hr, fun s hs n => ⟨nofun, fun h => ?_⟩⟩
  obtain ⟨c, hc, ⟨hcontains, hahead⟩, -⟩ := h
  obtain ⟨m, -, rfl⟩ := List.mem_map.mp hc
  refine absurd (List.mem_map.mpr ⟨s.archive, List.mem_filter.mpr ⟨?_, ?_⟩, rfl⟩) hahead
  · rw [hr]
    exact List.mem_map_of_mem hs
  · rw [SdkRange.selects_eq_contains]
    exact hcontains

/-- The version that a check goes on by is not met again. -/
theorem Agrees.next (h : b.Agrees sources ms) {m : DeclaredMethod} {v : UInt32} {vs : List UInt32}
    {ds : List Diagnostic} (hc : (⟨m, v :: vs, .ok ds⟩ : Check) ∈ b.checks) :
    m.effectiveRange.contains v = true ∧ v ∉ vs := by
  have hversions : (sources.map (·.version)).Pairwise (· < ·) :=
    h.sources_eq ▸ b.registry.pairwise_version_sources
  generalize hcheck : (⟨m, v :: vs, .ok ds⟩ : Check) = c at hc
  cases h.checks c hc with
  | failed he => cases hcheck
  | @going _ passed ahead hparts hopen =>
    cases ahead with
    | nil => cases hcheck
    | cons t ahead =>
      cases hcheck
      have hmem : t ∈ m.within sources := by
        rw [hparts]
        exact List.mem_append_right _ List.mem_cons_self
      have hsorted : ((m.within sources).map (·.version)).Pairwise (· < ·) :=
        hversions.sublist (List.filter_sublist.map _)
      rw [hparts, List.map_append, List.pairwise_append, List.map_cons, List.pairwise_cons]
        at hsorted
      exact ⟨(List.mem_filter.mp hmem).2,
        fun hv => absurd (hsorted.2.1.1 _ hv) (UInt32.lt_irrefl _)⟩

/-- **A step keeps the look-ups.** -/
theorem Looked.step (h : b.Looked sources) (hagrees : b.Agrees sources ms) (i : Nat) :
    (b.step i).Looked sources := by
  have hstays : ∀ c : Check, b.checks[i]? = some c →
      (⟨b.registry, b.checks.set i c⟩ : Batch).Looked sources := by
    intro c hc
    obtain ⟨hi, rfl⟩ := List.getElem?_eq_some_iff.mp hc
    rwa [List.set_getElem_self]
  unfold Batch.step
  split
  · exact h
  · rename_i c hc
    have hmem := List.mem_of_getElem? hc
    obtain ⟨m, ahead, found⟩ := c
    cases found with
    | error e => exact hstays _ hc
    | ok ds =>
      cases ahead with
      | nil => exact hstays _ hc
      | cons v vs =>
        obtain ⟨names, harchives, hnames⟩ := h
        obtain ⟨hcontains, hnext⟩ := hagrees.next hmem
        refine ⟨Function.update names v (names v ++ [m.className]), ?_, fun s hs n => ?_⟩
        · exact hagrees.coherent.archives_validateVersion_of_lookups harchives m v
        · have hbehind : (Check.step ⟨m, v :: vs, .ok ds⟩ b.registry).1.Behind s.version ↔
              s.version = v ∨ Check.Behind ⟨m, v :: vs, .ok ds⟩ s.version :=
            Check.behind_next_iff hcontains hnext s.version
          have hset := exists_mem_set_iff (y := (Check.step ⟨m, v :: vs, .ok ds⟩ b.registry).1)
            (P := fun c : Check => c.Behind s.version ∧ c.method.className = n) hc
            fun h => ⟨hbehind.mpr (Or.inr h.1), h.2⟩
          refine Iff.trans ?_ hset.symm
          rw [← hnames s hs n, hbehind]
          by_cases hv : s.version = v
          · subst hv
            rw [Function.update_self, List.mem_append, List.mem_singleton, or_comm]
            exact or_congr_left ⟨fun h => ⟨Or.inl rfl, h.symm⟩, fun h => h.2.symm⟩
          · rw [Function.update_of_ne hv, or_iff_right_of_imp]
            intro h
            exact (hnames s hs n).mpr ⟨_, hmem, h.1.resolve_left hv, h.2⟩

/-- **A run keeps the look-ups.** -/
theorem Looked.run (h : b.Looked sources) (hagrees : b.Agrees sources ms) (schedule : List Nat) :
    (b.run schedule).Looked sources := by
  induction schedule generalizing b with
  | nil => exact h
  | cons i schedule ih => exact ih (h.step hagrees i) (hagrees.step i)

/-- In a batch that is done, nothing is ahead of a declaration. -/
theorem behind_iff_of_answers {out : List (List Diagnostic)} (hout : b.Answers (.ok out))
    {c : Check} (hc : c ∈ b.checks) (version : UInt32) :
    c.Behind version ↔ c.method.effectiveRange.contains version = true := by
  have hresults : b.checks.map (·.result?) = out.map fun ds => some (.ok ds) := hout
  have hresult : c.result? ∈ out.map fun ds => some (.ok ds) :=
    hresults ▸ List.mem_map_of_mem hc
  obtain ⟨ds, -, hds⟩ := List.mem_map.mp hresult
  refine and_iff_left fun hahead => ?_
  unfold Check.result? at hds
  split at hds
  · cases hds
  · rename_i hnil
    rw [hnil] at hahead
    cases hahead
  · cases hds

end Batch

namespace VersionRegistry

/-- What a batch that succeeded leaves, worked off one declaration after the other or by any
    schedule. -/
inductive BatchLeaves (r : VersionRegistry) (ms : List DeclaredMethod) : VersionRegistry → Prop
  | inOrder {out : List (List Diagnostic)} (h : (r.validateAll ms).1 = .ok out) :
    BatchLeaves r ms (r.validateAll ms).2
  | scheduled {schedule : List Nat} {out : List (List Diagnostic)}
    (h : ((Batch.start r ms).run schedule).Answers (.ok out)) :
    BatchLeaves r ms ((Batch.start r ms).run schedule).registry

/-- Declarations one after the other leave what their validations leave, up to the first that
    fails. -/
theorem validateAll_snd_of_ok {r : VersionRegistry} {ms : List DeclaredMethod}
    {out : List (List Diagnostic)} (h : (r.validateAll ms).1 = .ok out) :
    (r.validateAll ms).2 = r.after (ms.map .validate) := by
  induction ms generalizing r out with
  | nil => rfl
  | cons m ms ih =>
    rw [validateAll] at h ⊢
    show _ = (r.validate m).2.after (ms.map .validate)
    cases hm : r.validate m with
    | mk answer r' =>
      rw [hm] at h
      cases answer with
      | error e => cases h
      | ok ds =>
        show (r'.validateAll ms).2 = r'.after _
        cases hrest : (r'.validateAll ms).1 with
        | ok out' => exact ih hrest
        | error e =>
          have herror : (r'.validateAll ms).1.map (ds :: ·) = .ok out := h
          rw [hrest] at herror
          cases herror

variable {r r' : VersionRegistry} {ms : List DeclaredMethod}

/-- Where the reference answers, every version that the declaration is meant for can be opened. -/
theorem failure?_of_reference {m : DeclaredMethod} {sources : List ArchiveSource}
    {ds : List Diagnostic} (h : m.reference sources = .ok ds) {s : ArchiveSource}
    (hs : s ∈ sources) (hcontains : m.effectiveRange.contains s.version = true) :
    s.failure? = none := by
  unfold DeclaredMethod.reference DeclaredMethod.differencesOver at h
  split at h
  · cases h
  · rename_i hnone
    exact List.findSome?_eq_none_iff.mp hnone s (List.mem_filter.mpr ⟨hs, hcontains⟩)

/-- Validations that no archive ends reach every version that their declarations are meant for. -/
theorem namesAt_map_validate {sources : List ArchiveSource} {version : UInt32}
    (hversion : version ∈ sources.map (·.version))
    (hok : ∀ m ∈ ms, ∃ ds, m.reference sources = .ok ds) :
    ValidationCall.namesAt (ms.map .validate) sources version =
      (ms.filter (·.effectiveRange.contains version)).map (·.className) := by
  rw [ValidationCall.namesAt, List.filter_map, List.map_map]
  refine congrArg (List.map DeclaredMethod.className) (List.filter_congr fun m hm => ?_)
  obtain ⟨ds, hds⟩ := hok m hm
  have hreaches : (ValidationCall.validate m).Reaches sources version ↔
      m.effectiveRange.contains version = true :=
    ⟨fun h => h.2.1, fun h => ⟨hversion, h, fun s hs _ hcontains =>
      failure?_of_reference hds hs hcontains⟩⟩
  rw [Function.comp_apply, Bool.eq_iff_iff, decide_eq_true_eq, hreaches]

/-- A batch that succeeded has an answer of the reference for every declaration. -/
theorem BatchLeaves.exists_reference (h : r.BatchLeaves ms r') (hr : r.Coherent) :
    ∀ m ∈ ms, ∃ ds, m.reference r.sources = .ok ds := by
  cases h with
  | @inOrder out h =>
    have hanswer : r.BatchAnswer ms (.ok out) := h ▸ .inOrder
    exact (hanswer.exists_eq_ok_iff hr).mp ⟨out, rfl⟩
  | @scheduled schedule out h =>
    exact ((VersionRegistry.BatchAnswer.scheduled h).exists_eq_ok_iff hr).mp ⟨out, rfl⟩

/-- After a batch that succeeded, in every archive the classes of the declarations were looked up
    that are meant for its version. -/
theorem BatchLeaves.archives (h : r.BatchLeaves ms r') (hr : r.Coherent)
    (hfresh : r.archives = r.sources.map (·.archive)) :
    ∃ names : UInt32 → List String,
      r'.archives = r.sources.map (fun s => s.archive.after (lookups (names s.version))) ∧
      ∀ s ∈ r.sources, ∀ n, n ∈ names s.version ↔
        n ∈ (ms.filter (·.effectiveRange.contains s.version)).map (·.className) := by
  have hok := h.exists_reference hr
  cases h with
  | @inOrder out h =>
    have hafter : r.after (ms.map .validate) =
        r.after ((ms.map ValidationCall.validate).map (·.toCall)) := by
      rw [List.map_map]
      rfl
    refine ⟨ValidationCall.namesAt (ms.map .validate) r.sources, ?_, fun s hs n => ?_⟩
    · rw [validateAll_snd_of_ok h, hafter, hr.archives_after, hfresh, List.map_map]
      rfl
    · rw [namesAt_map_validate (List.mem_map_of_mem hs) hok]
  | @scheduled schedule out h =>
    have hagrees := (Batch.agrees_start hr ms).run schedule
    obtain ⟨names, harchives, hnames⟩ :=
      (Batch.looked_start hfresh ms).run (Batch.agrees_start hr ms) schedule
    refine ⟨names, harchives, fun s hs n => (hnames s hs n).trans ?_⟩
    have hmethods : ∀ m, m ∈ ms ↔ ∃ c ∈ ((Batch.start r ms).run schedule).checks, c.method = m := by
      intro m
      rw [← List.mem_map, hagrees.methods]
    rw [List.mem_map]
    simp only [List.mem_filter, hmethods]
    constructor
    · intro hx
      obtain ⟨c, hc, hbehind, hname⟩ := hx
      exact ⟨c.method, ⟨⟨c, hc, rfl⟩, (Batch.behind_iff_of_answers h hc _).mp hbehind⟩, hname⟩
    · intro hx
      obtain ⟨_, ⟨⟨c, hc, rfl⟩, hcontains⟩, hname⟩ := hx
      exact ⟨c, hc, (Batch.behind_iff_of_answers h hc _).mpr hcontains, hname⟩

/-! ## 5. Accounts of a registry -/

/-- Where every source has its archive, it is the one of its version. -/
theorem get?_of_archives {sources : List ArchiveSource} {f : ArchiveSource → ReferenceArchive}
    (h : r.archives = sources.map f) {s : ArchiveSource} (hs : s ∈ sources)
    (hf : (f s).version = s.version) : r.get? s.version = some (f s) := by
  have hmem : f s ∈ r.archives := h ▸ List.mem_map_of_mem hs
  rw [← hf, get?_version_of_mem hmem]

/-- A registry of archives that were not opened yet holds them as they were made. -/
theorem archives_of_ofArchives {ss : List ArchiveSource}
    (hr : ofArchives (ss.map (·.archive)) = .ok r) : r.archives = r.sources.map (·.archive) := by
  have hmade : ∀ a ∈ r.archives, a.source.archive = a := by
    intro a ha
    obtain ⟨s, -, rfl⟩ := List.mem_map.mp ((archives_perm_of_ofArchives hr).mem_iff.mp ha)
    rfl
  rw [sources, List.map_map]
  exact ((List.map_congr_left hmade).trans (List.map_id _)).symm

theorem reachable_of_ofArchives_map {ss : List ArchiveSource}
    (hr : ofArchives (ss.map (·.archive)) = .ok r) : r.Reachable := by
  refine ⟨_, r, [], fun a ha => ?_, hr, rfl⟩
  obtain ⟨s, -, rfl⟩ := List.mem_map.mp ha
  exact ⟨s, [], rfl⟩

theorem coherent_of_ofArchives_map {ss : List ArchiveSource}
    (hr : ofArchives (ss.map (·.archive)) = .ok r) : r.Coherent :=
  (reachable_of_ofArchives_map hr).coherent

/-- What a registry is read from is what its archives were made of. -/
theorem sources_perm_of_ofArchives {ss : List ArchiveSource}
    (hr : ofArchives (ss.map (·.archive)) = .ok r) : r.sources.Perm ss := by
  have hperm := (archives_perm_of_ofArchives hr).map (·.source)
  rw [List.map_map] at hperm
  exact hperm.trans (List.Perm.of_eq (List.map_id ss))

end VersionRegistry

/-- **What validations do to the archives of a registry that is new.** Every archive that no request
    reaches is as it was made. Every other one was opened once; if that succeeded, it keeps exactly
    the classes of the requests that reached it and has read an entry for each of them, and if not,
    it keeps and has read nothing. At any time a request leaves the archives as they are that lie
    outside its range or above one in its range that cannot be opened. A batch that succeeded,
    worked off in any order, opened the archives of all versions that its declarations are meant
    for, and the same accounts hold with the classes of these declarations. -/
theorem visited_after_validation {ss : List ArchiveSource} {r : VersionRegistry}
    (hr : VersionRegistry.ofArchives (ss.map (·.archive)) = .ok r) :
    (∀ calls : List ValidationCall, ∀ s ∈ ss, ∃ a,
      (r.after (calls.map (·.toCall))).get? s.version = some a ∧
      s.Visited (ValidationCall.namesAt calls ss s.version) a) ∧
    (∀ (calls : List RegistryCall) (call : ValidationCall), ∀ s ∈ ss,
      (call.range.contains s.version = false ∨ ∃ f ∈ ss, f.version < s.version ∧
        call.range.contains f.version = true ∧ f.failure? ≠ none) →
      (call.toCall.run (r.after calls)).get? s.version = (r.after calls).get? s.version) ∧
    (∀ (ms : List DeclaredMethod) (r' : VersionRegistry), r.BatchLeaves ms r' → ∀ s ∈ ss,
      (∀ m ∈ ms, m.effectiveRange.contains s.version = true → s.failure? = none) ∧
      ∃ a, r'.get? s.version = some a ∧
        s.Visited ((ms.filter (·.effectiveRange.contains s.version)).map (·.className)) a) := by
  have hcoherent := VersionRegistry.coherent_of_ofArchives_map hr
  have hfresh := VersionRegistry.archives_of_ofArchives hr
  have hperm := VersionRegistry.sources_perm_of_ofArchives hr
  have hversion : ∀ (s : ArchiveSource) names,
      (s.archive.after (lookups names)).version = s.version := fun s names =>
    congrArg ArchiveSource.version (ReferenceArchive.source_after _ _)
  refine ⟨fun calls s hs => ?_, fun calls call s hs hout => ?_, fun ms r' h s hs => ?_⟩
  · have harchives := hcoherent.archives_after calls
    rw [hfresh, List.map_map] at harchives
    rw [ValidationCall.namesAt_congr hperm.symm]
    exact ⟨_, VersionRegistry.get?_of_archives harchives (hperm.mem_iff.mpr hs) (hversion s _),
      s.visited_lookups _⟩
  · obtain ⟨hsources, hafter⟩ := r.follows_after calls
    have hnot : ¬ call.Reaches (r.after calls).sources s.version := by
      rw [hsources]
      intro h
      rcases hout with hout | ⟨f, hf, hlt, hcontains, hfailure⟩
      · rw [h.2.1] at hout
        cases hout
      · exact hfailure (h.2.2 f (hperm.mem_iff.mpr hf) hlt hcontains)
    obtain ⟨a, ha, rfl⟩ : ∃ a ∈ (r.after calls).archives, a.source = s := by
      rw [← List.mem_map]
      exact (hsources ▸ hperm.mem_iff.mpr hs : s ∈ (r.after calls).sources)
    have harchives := (hafter hcoherent).archives_run call
    have hmem : a ∈ (call.toCall.run (r.after calls)).archives := by
      rw [harchives]
      exact List.mem_map.mpr ⟨a, ha, if_neg hnot⟩
    exact (VersionRegistry.get?_version_of_mem hmem).trans
      (VersionRegistry.get?_version_of_mem ha).symm
  · have hs' := hperm.mem_iff.mpr hs
    obtain ⟨names, harchives, hnames⟩ := h.archives hcoherent hfresh
    refine ⟨fun m hm hcontains => ?_, _, VersionRegistry.get?_of_archives harchives hs'
      (hversion s _), (s.visited_lookups _).congr (hnames s hs')⟩
    obtain ⟨ds, hds⟩ := h.exists_reference hcoherent m hm
    exact VersionRegistry.failure?_of_reference hds hs' hcontains

/-- Another source that can be opened and has no entries. -/
def ArchiveSource.bareLater : ArchiveSource := ⟨25, "25.jar", fun _ => .ok fun _ => .ok none⟩

/-- A declaration for all versions stops at the source that cannot be opened, and the last source
    only meets the request for its version; a batch up to 22 touches the first source alone. -/
theorem visited_bare_lost_bareLater :
    ∃ r, VersionRegistry.ofArchives ([ArchiveSource.lost, .bare, .bareLater].map (·.archive))
        = .ok r ∧
      (∃ a, (r.after [.validate (.plain "a.B" none), .validateVersion (.plain "c.D" none) 25]).get?
          21 = some a ∧ a.opens = 1 ∧ a.cachedClasses = 1 ∧ a.reads = 1 ∧ "a.B" ∈ a.classes) ∧
      (∃ a, (r.after [.validate (.plain "a.B" none), .validateVersion (.plain "c.D" none) 25]).get?
          23 = some a ∧ a.opens = 1 ∧ a.cachedClasses = 0 ∧ a.reads = 0) ∧
      (∃ a, (r.after [.validate (.plain "a.B" none), .validateVersion (.plain "c.D" none) 25]).get?
          25 = some a ∧ a.opens = 1 ∧ a.cachedClasses = 1 ∧ "a.B" ∉ a.classes) ∧
      (r.validate (.plain "a.B" none)).2.get? 25 = r.get? 25 ∧
      ∃ a, (r.validateAll [.plain "a.B" (some 22), .plain "a.B" (some 21)]).2.get? 23 = some a ∧
        a = ArchiveSource.lost.archive := by
  obtain ⟨r, hr⟩ : ∃ r, VersionRegistry.ofArchives
      ([ArchiveSource.lost, .bare, .bareLater].map (·.archive)) = .ok r := ⟨_, rfl⟩
  obtain ⟨hrun, hframe, hbatch⟩ := visited_after_validation hr
  have hcalls := hrun [.validate (.plain "a.B" none), .validateVersion (.plain "c.D" none) 25]
  refine ⟨r, hr, ?_, ?_, ?_, ?_, ?_⟩
  · obtain ⟨a, ha, hvisited⟩ := hcalls .bare (by simp)
    have hnames : ValidationCall.namesAt [.validate (.plain "a.B" none),
        .validateVersion (.plain "c.D" none) 25] [ArchiveSource.lost, .bare, .bareLater]
        ArchiveSource.bare.version = ["a.B"] := by decide
    rw [hnames] at hvisited
    have hcached := hvisited.cached (by simp) rfl
    exact ⟨a, ha, hvisited.opens (by simp), hcached, (hvisited.reads (by simp) rfl).trans hcached,
      (hvisited.classes (by simp) rfl _).mpr (by simp)⟩
  · obtain ⟨a, ha, hvisited⟩ := hcalls .lost (by simp)
    have hnames : ValidationCall.namesAt [.validate (.plain "a.B" none),
        .validateVersion (.plain "c.D" none) 25] [ArchiveSource.lost, .bare, .bareLater]
        ArchiveSource.lost.version = ["a.B"] := by decide
    rw [hnames] at hvisited
    have hlost := hvisited.lost (by simp) nofun
    exact ⟨a, ha, hvisited.opens (by simp), hlost.2, hlost.1⟩
  · obtain ⟨a, ha, hvisited⟩ := hcalls .bareLater (by simp)
    have hnames : ValidationCall.namesAt [.validate (.plain "a.B" none),
        .validateVersion (.plain "c.D" none) 25] [ArchiveSource.lost, .bare, .bareLater]
        ArchiveSource.bareLater.version = ["c.D"] := by decide
    rw [hnames] at hvisited
    exact ⟨a, ha, hvisited.opens (by simp), hvisited.cached (by simp) rfl,
      fun h => absurd ((hvisited.classes (by simp) rfl _).mp h) (by decide)⟩
  · exact hframe [] (.validate (.plain "a.B" none)) .bareLater (by simp)
      (Or.inr ⟨.lost, by simp, by decide, by decide, nofun⟩)
  · obtain ⟨out, hout⟩ : ∃ out, (r.validateAll [.plain "a.B" (some 22),
        .plain "a.B" (some 21)]).1 = .ok out := by
      have hsources : r.sources = [.bare, .lost, .bareLater] := by
        cases hr
        rfl
      rw [(VersionRegistry.coherent_of_ofArchives_map hr).validateAll_fst, hsources]
      exact ⟨_, rfl⟩
    obtain ⟨-, a, ha, hvisited⟩ := hbatch _ _ (.inOrder hout) .lost (by simp)
    exact ⟨a, ha, hvisited.untouched (by decide)⟩

end SdkConformance
