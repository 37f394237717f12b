import SdkConformance.Declaration.Validation
import SdkConformance.Proofs.Sdk.RegistryVisits
import SdkConformance.Proofs.Signature.Overloads

/-!
# Validation after a run of requests

A registry is shared by all declarations, and every request opens archives and keeps classes in it.
The differences that a declaration is told do not depend on that: they are those of a reference that
keeps nothing.

* `DeclaredMethod.reference`: the differences over the sources of a registry, without any state;
* `RegistryCall`: what can be requested of a registry; `follows_run` is the step lemma and
  `follows_after` the one of a whole run;
* `validate_after_eq_reference`: after any run, validation answers what the reference answers.
-/

namespace SdkConformance

/-! ## 1. The reference -/

namespace ArchiveSource

/-- The error of opening, if the loader fails. -/
def failure? (s : ArchiveSource) : Option Error :=
  match s.loader s.path with
  | .error e => some (.archiveOpen s.version s.path e.asCause)
  | .ok _ => none

/-- The class of a dotted name: none if its entry is absent, unreadable or no class file. -/
def class? (s : ArchiveSource) (className : String) : Option ClassFile :=
  match s.entryAnswer className with
  | .error _ => none
  | .ok answer => decoded answer

/-- The table of a class, by the failure of opening and by the class. -/
theorem tableFrom_eq_match (s : ArchiveSource) (n : String) :
    s.tableFrom (s.entryAnswer n) = match s.failure? with
      | some e => .error e
      | none => .ok ((s.class? n).map SignatureTable.ofClass) := by
  unfold failure? class? entryAnswer
  cases s.loader s.path <;> rfl

end ArchiveSource

namespace DeclaredMethod

/-- The differences from the class of a version, if there is one. -/
def differences (m : DeclaredMethod) (version : UInt32) : Option ClassFile → List Diagnostic
  | none => [.classNotFound m.className version]
  | some c =>
    match (SignatureTable.ofClass c).find ⟨m.binaryName, m.params⟩ with
    | .absent => [.methodNotFound m.className m.name version]
    | .exact f | .erased f =>
      (if m.isStatic = f.isStatic then []
        else [.staticMismatch m.className m.name version m.isStatic]) ++
      (if m.returnType = f.returnType then []
        else [.returnTypeMismatch m.className m.name version f.returnType m.returnType])

/-- The differences over the sources of a range: the error of the first one of which the archive
    cannot be opened, else the differences source by source. -/
def differencesOver (m : DeclaredMethod) (inRange : List ArchiveSource) :
    Except Error (List Diagnostic) :=
  match inRange.findSome? (·.failure?) with
  | some e => .error e
  | none => .ok (inRange.flatMap fun s => m.differences s.version (s.class? m.className))

/-- The differences of a declaration over its effective range, from what the versions are read
    from. Nothing is kept. -/
def reference (m : DeclaredMethod) (sources : List ArchiveSource) :
    Except Error (List Diagnostic) :=
  m.differencesOver (sources.filter fun s => m.effectiveRange.contains s.version)

theorem compare_eq (m : DeclaredMethod) (f : MethodFacts) (version : UInt32) :
    m.compare f version =
      (if m.isStatic = f.isStatic then []
        else [.staticMismatch m.className m.name version m.isStatic]) ++
      (if m.returnType = f.returnType then []
        else [.returnTypeMismatch m.className m.name version f.returnType m.returnType]) := by
  unfold compare
  by_cases hs : m.isStatic = f.isStatic <;> by_cases hr : m.returnType = f.returnType <;>
    simp [hs, hr]

/-- What is checked against the table of a class are the differences from that class. -/
theorem check_map_ofClass (m : DeclaredMethod) (version : UInt32) (c : Option ClassFile) :
    m.check version (c.map SignatureTable.ofClass) = m.differences version c := by
  cases c with
  | none => rfl
  | some c =>
    simp only [Option.map_some, check, differences]
    rw [show (⟨m.binaryName, m.params⟩ : MethodKey) = m.key from rfl]
    cases (SignatureTable.ofClass c).find m.key with
    | absent => rfl
    | exact f => exact m.compare_eq f version
    | erased f => exact m.compare_eq f version

/-- A difference names the class and the method as the declaration does. -/
theorem names_of_mem_differences {m : DeclaredMethod} {version : UInt32} {c : Option ClassFile}
    {d : Diagnostic} (h : d ∈ m.differences version c) :
    d.className = m.className ∧ ∀ name, d.methodName? = some name → name = m.name := by
  cases c with
  | none =>
    rw [differences, List.mem_singleton] at h
    subst h
    exact ⟨rfl, fun name hn => by cases hn⟩
  | some c =>
    -- the two comparisons are the same for an exact and for an erased match
    have hcompare : ∀ f : MethodFacts, d ∈ m.compare f version →
        d.className = m.className ∧ ∀ name, d.methodName? = some name → name = m.name := by
      intro f hd
      rw [compare_eq, List.mem_append] at hd
      rcases hd with hd | hd <;> split at hd
      · cases hd
      · rw [List.mem_singleton] at hd
        subst hd
        exact ⟨rfl, fun name hn => (Option.some.inj hn).symm⟩
      · cases hd
      · rw [List.mem_singleton] at hd
        subst hd
        exact ⟨rfl, fun name hn => (Option.some.inj hn).symm⟩
    simp only [differences] at h
    split at h
    · rw [List.mem_singleton] at h
      subst h
      exact ⟨rfl, fun name hn => (Option.some.inj hn).symm⟩
    · rename_i f _
      exact hcompare f (by rw [compare_eq]; exact h)
    · rename_i f _
      exact hcompare f (by rw [compare_eq]; exact h)

end DeclaredMethod

/-! ## 2. One declaration -/

namespace ReferenceArchive

/-- A validation leaves what its look-up leaves. -/
theorem validate_snd (m : DeclaredMethod) (a : ReferenceArchive) :
    (a.validate m).2 = (a.lookupClass m.className).2 := by
  unfold validate
  split <;> rename_i h <;> rw [h]

theorem keeps_validate (m : DeclaredMethod) : Keeps fun a => a.validate m := by
  intro a
  refine ⟨?_, fun h => ?_⟩
  · show (a.validate m).2.source = a.source
    rw [validate_snd, source_lookupClass]
  · show (a.validate m).2.Coherent
    rw [validate_snd]
    exact h.lookupClass m.className

/-- Against one version, validation answers the failure of opening or the differences. -/
theorem Coherent.validate_fst {a : ReferenceArchive} (h : a.Coherent) (m : DeclaredMethod) :
    (a.validate m).1 = match a.source.failure? with
      | some e => .error e
      | none => .ok (m.differences a.version (a.source.class? m.className)) := by
  have hfst : (a.validate m).1 = (a.lookupClass m.className).1.map (m.check a.version) := by
    unfold validate
    split <;> rename_i hl <;> rw [hl] <;> rfl
  rw [hfst, h.lookupClass_fst, ArchiveSource.tableFrom_eq_match]
  cases a.source.failure? with
  | some e => rfl
  | none =>
    show Except.ok (m.check a.version ((a.source.class? m.className).map _)) = _
    rw [DeclaredMethod.check_map_ofClass]

end ReferenceArchive

/-- Where each step fails with what `failure?` says or else answers, the first failure ends the
    list. -/
theorem mapM_eq_findSome? {α β : Type} {f : α → Except Error β} {failure? : α → Option Error}
    {answer : α → β} (as : List α)
    (h : ∀ a ∈ as, f a = match failure? a with | some e => .error e | none => .ok (answer a)) :
    as.mapM f = match as.findSome? failure? with
      | some e => .error e
      | none => .ok (as.map answer) := by
  induction as with
  | nil => rfl
  | cons a as ih =>
    rw [List.mapM_cons, ih fun b hb => h b (List.mem_cons_of_mem _ hb), h a List.mem_cons_self,
      List.findSome?_cons]
    cases failure? a with
    | some e => rfl
    | none => cases as.findSome? failure? <;> rfl

namespace VersionRegistry

/-- Over a range, validation answers what the sources in it answer. -/
theorem Coherent.validateRange_fst {r : VersionRegistry} (hr : r.Coherent) (m : DeclaredMethod)
    (range : SdkRange) :
    (r.validateRange m range).1 =
      m.differencesOver (r.sources.filter fun s => range.contains s.version) := by
  have hsel : (r.archives.filter fun a => range.selects a.version) =
      r.archives.filter fun a => range.contains a.version := by
    simp only [SdkRange.selects_eq_contains]
  have hsources : (r.sources.filter fun s => range.contains s.version) =
      (r.archives.filter fun a => range.contains a.version).map (·.source) := by
    rw [sources, List.filter_map]; rfl
  have hfailure : (r.sources.filter fun s => range.contains s.version).findSome? (·.failure?) =
      (r.archives.filter fun a => range.contains a.version).findSome?
        fun a => a.source.failure? := by
    rw [hsources, List.findSome?_map]; rfl
  have hdifferences : ((r.sources.filter fun s => range.contains s.version).flatMap fun s =>
        m.differences s.version (s.class? m.className)) =
      ((r.archives.filter fun a => range.contains a.version).map fun a =>
        m.differences a.version (a.source.class? m.className)).flatten := by
    rw [hsources, List.flatMap_map]; rfl
  have hanswers := mapM_eq_findSome? (r.archives.filter fun a => range.contains a.version)
    fun a ha => (hr a (List.mem_filter.mp ha).1).validate_fst m
  show (r.visit _ _ (ReferenceArchive.version_validate m)).1.map List.flatten = _
  rw [visit_fst, visitArchives_fst, hsel, hanswers, DeclaredMethod.differencesOver, hfailure,
    hdifferences]
  cases (r.archives.filter fun a => range.contains a.version).findSome? fun a => a.source.failure?
    <;> rfl

theorem Coherent.validate_fst {r : VersionRegistry} (hr : r.Coherent) (m : DeclaredMethod) :
    (r.validate m).1 = m.reference r.sources :=
  hr.validateRange_fst m m.effectiveRange

/-! ## 3. Requests to a registry -/

theorem follows_validateRange (r : VersionRegistry) (m : DeclaredMethod) (range : SdkRange) :
    r.Follows (r.validateRange m range).2 :=
  follows_visit (ReferenceArchive.keeps_validate m) (ReferenceArchive.version_validate m)
    range.selects r

theorem follows_validateAll (r : VersionRegistry) (ms : List DeclaredMethod) :
    r.Follows (r.validateAll ms).2 := by
  induction ms generalizing r with
  | nil => exact Follows.refl r
  | cons m ms ih =>
    have hm : r.Follows (r.validate m).2 := r.follows_validateRange m m.effectiveRange
    rw [validateAll]
    split <;> rename_i h <;> rw [h] at hm
    · exact hm
    · exact hm.trans (ih _)

end VersionRegistry

/-- A request to a registry, or to the archive of one of its versions. -/
inductive RegistryCall where
  | archive (version : UInt32) (call : ArchiveCall)
  | validate (m : DeclaredMethod)
  | validateRange (m : DeclaredMethod) (range : SdkRange)
  | validateVersion (m : DeclaredMethod) (version : UInt32)
  /-- Validate a batch. A batch that is worked off in another order, or is broken off, leaves what
      some look-ups in the single archives leave. -/
  | validateAll (ms : List DeclaredMethod)

/-- The registry after a request. -/
def RegistryCall.run : RegistryCall → VersionRegistry → VersionRegistry
  | .archive v call, r => (r.onVersion v call.run (ReferenceArchive.version_run call)).2
  | .validate m, r => (r.validate m).2
  | .validateRange m range, r => (r.validateRange m range).2
  | .validateVersion m v, r => (r.validateVersion m v).2
  | .validateAll ms, r => (r.validateAll ms).2

namespace VersionRegistry

/-- The registry after some requests. -/
def after (r : VersionRegistry) : List RegistryCall → VersionRegistry
  | [] => r
  | call :: calls => (call.run r).after calls

/-- **A request leads to a registry that follows.** -/
theorem follows_run (r : VersionRegistry) (call : RegistryCall) : r.Follows (call.run r) := by
  cases call with
  | archive v call =>
    exact follows_visit (ReferenceArchive.keeps_run call) (ReferenceArchive.version_run call) _ r
  | validate m => exact r.follows_validateRange m m.effectiveRange
  | validateRange m range => exact r.follows_validateRange m range
  | validateVersion m v =>
    exact follows_visit (ReferenceArchive.keeps_validate m) (ReferenceArchive.version_validate m)
      _ r
  | validateAll ms => exact r.follows_validateAll ms

/-- **A run leads to a registry that follows.** -/
theorem follows_after (r : VersionRegistry) (calls : List RegistryCall) :
    r.Follows (r.after calls) := by
  induction calls generalizing r with
  | nil => exact Follows.refl r
  | cons call calls ih => exact (r.follows_run call).trans (ih (call.run r))

end VersionRegistry

/-! ## 4. Validation after a run -/

theorem DeclaredMethod.names_of_reference {m : DeclaredMethod} {sources : List ArchiveSource}
    {ds : List Diagnostic} (h : m.reference sources = .ok ds) {d : Diagnostic} (hd : d ∈ ds) :
    d.className = m.className ∧ ∀ name, d.methodName? = some name → name = m.name := by
  unfold reference differencesOver at h
  split at h
  · cases h
  · cases h
    obtain ⟨s, _, hs⟩ := List.mem_flatMap.mp hd
    exact names_of_mem_differences hs

/-- **Validation is that of the reference**, whatever was requested of the registry before: the
    sources are those of the archives that it was built from, in ascending order, and every
    difference names class and method as they were declared. -/
theorem validate_after_eq_reference {as : List ReferenceArchive} {r : VersionRegistry}
    (has : ∀ a ∈ as, a.Reachable) (hr : VersionRegistry.ofArchives as = .ok r)
    (calls : List RegistryCall) (m : DeclaredMethod) :
    ((r.after calls).validate m).1 = m.reference r.sources ∧
    r.sources.Perm (as.map (·.source)) ∧
    (r.sources.map (·.version)).Pairwise (· < ·) ∧
    ∀ ds, ((r.after calls).validate m).1 = .ok ds → ∀ d ∈ ds,
      d.className = m.className ∧ ∀ name, d.methodName? = some name → name = m.name := by
  obtain ⟨hsources, hcoherent⟩ := r.follows_after calls
  have hfst : ((r.after calls).validate m).1 = m.reference r.sources := by
    rw [(hcoherent (VersionRegistry.coherent_of_ofArchives has hr)).validate_fst m, hsources]
  refine ⟨hfst, (VersionRegistry.archives_perm_of_ofArchives hr).map _,
    r.pairwise_version_sources, fun ds hds d hd => ?_⟩
  rw [hfst] at hds
  exact DeclaredMethod.names_of_reference hds hd

/-- A source that cannot be opened. -/
def ArchiveSource.lost : ArchiveSource := ⟨23, "23.jar", fun _ => .error (.file .notFound)⟩

/-- A source with the class `a.B` of two setters alone. -/
def ArchiveSource.setters : ArchiveSource :=
  ⟨30, "30.jar", fun _ => .ok fun name =>
    .ok (if name = "a/B.class" then some twoSetters else none)⟩

/-- A declaration of `set` that returns nothing. -/
def DeclaredMethod.setter (className : String) (params : List String) : DeclaredMethod :=
  ⟨className, "set", params, false, "void", .unbounded, .unbounded⟩

/-- A declaration of a method of `a.B` for the versions from 24 on. -/
def DeclaredMethod.later (name : String) (params : List String) (isStatic : Bool)
    (returnType : String) : DeclaredMethod :=
  ⟨"a.B", name, params, isStatic, returnType, ⟨some 24, none⟩, .unbounded⟩

/-- Three sources, given in descending order: one with a class, one that cannot be opened, and a
    bare one. After some requests, a declaration up to 22 lacks its class in the bare one, and a
    declaration without bounds fails at the one that cannot be opened. From 24 on, where a request
    has kept the table of the class, a setter of a number is as declared, or it differs in both
    facts, and another method is not there. -/
theorem validate_bare_lost_and_setters :
    ∃ r, VersionRegistry.ofArchives
        ([ArchiveSource.setters, .lost, .bare].map (·.archive)) = .ok r ∧
      ((r.after [.archive 23 .opening, .validateAll [⟨"a.B", "m", [], false, "void",
        .unbounded, .unbounded⟩]]).validate
          ⟨"a.B", "m", [], false, "void", ⟨none, some 22⟩, .unbounded⟩).1 =
        .ok [.classNotFound "a.B" 21] ∧
      ((r.after [.archive 21 (.lookup "a.B")]).validate (.setter "a.B" ["int"])).1 =
        .error (.archiveOpen 23 "23.jar" (Error.file .notFound).asCause) ∧
      ((r.after [.archive 30 (.lookup "a.B")]).validate
        (.later "set" ["int"] true "boolean")).1 = .ok [] ∧
      ((r.after [.archive 30 (.lookup "a.B"), .validate (.setter "a.B" [])]).validate
        (.later "set" ["int"] false "void")).1 =
          .ok [.staticMismatch "a.B" "set" 30 false,
            .returnTypeMismatch "a.B" "set" 30 "boolean" "void"] ∧
      ((r.after [.archive 30 (.lookup "a.B")]).validate (.later "get" [] false "void")).1 =
        .ok [.methodNotFound "a.B" "get" 30] := by
  have has : ∀ a ∈ [ArchiveSource.setters, .lost, .bare].map (·.archive), a.Reachable := by
    intro a ha
    obtain ⟨s, -, rfl⟩ := List.mem_map.mp ha
    exact ⟨s, [], rfl⟩
  have hclass : ArchiveSource.setters.class? "a.B" = some twoSettersClass := by decide +kernel
  have hset : ∀ isStatic returnType, (SignatureTable.ofClass twoSettersClass).find
      (DeclaredMethod.later "set" ["int"] isStatic returnType).key = .exact ⟨true, "boolean"⟩ := by
    intro isStatic returnType
    rw [find_ofClass]
    rfl
  have hget : (SignatureTable.ofClass twoSettersClass).find
      (DeclaredMethod.later "get" [] false "void").key = .absent := by
    rw [find_ofClass]
    rfl
  -- from 24 on, only the source with the class is in the range
  have hlater : ∀ name params isStatic returnType,
      (DeclaredMethod.later name params isStatic returnType).reference [.bare, .lost, .setters] =
        .ok ((DeclaredMethod.later name params isStatic returnType).check 30
          (some (.ofClass twoSettersClass))) := by
    intro name params isStatic returnType
    rw [← Option.map_some, DeclaredMethod.check_map_ofClass, ← hclass,
      ← List.append_nil (DeclaredMethod.differences _ _ _)]
    rfl
  refine ⟨_, rfl, ?_, ?_, ?_, ?_, ?_⟩
  · exact (validate_after_eq_reference has rfl _ _).1.trans rfl
  · exact (validate_after_eq_reference has rfl _ _).1.trans rfl
  · refine (validate_after_eq_reference has rfl _ _).1.trans ((hlater _ _ _ _).trans ?_)
    rw [DeclaredMethod.check, hset]
    rfl
  · refine (validate_after_eq_reference has rfl _ _).1.trans ((hlater _ _ _ _).trans ?_)
    rw [DeclaredMethod.check, hset]
    rfl
  · refine (validate_after_eq_reference has rfl _ _).1.trans ((hlater _ _ _ _).trans ?_)
    rw [DeclaredMethod.check, hget]
    rfl

end SdkConformance
