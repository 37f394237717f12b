import SdkConformance.Proofs.Sdk.ArchiveRuns
import SdkConformance.Sdk.Registry

/-!
# Visits to the archives of a registry

An operation on a registry visits some of its archives, in ascending order and up to the first that
fails. What a visit answers and what it leaves behind follow from what it does to one archive:

* `visitArchives_fst`: the answers are those of the selected archives, up to the first failure;
* `ReferenceArchive.Keeps`: the operation keeps sources and coherence; then a visit does, as
  `VersionRegistry.Follows` says (`follows_visit`);
* `archives_perm_of_ofArchives`: a registry holds the archives that it is built from;
* `exists_ofArchives_iff`: it is built unless two of them have the same version;
* `get?_version_of_mem`: each of them is found by its version.
-/

namespace SdkConformance

/-! ## 1. Answers of lists -/

section Outcomes

variable {α β : Type} {f : α → Except Error β} {as : List α}

/-- Answers are collected exactly if there is one for every element. -/
theorem mapM_eq_ok_iff {out : List β} : as.mapM f = .ok out ↔ as.map f = out.map .ok := by
  induction as generalizing out with
  | nil =>
    constructor
    · intro h
      cases h
      rfl
    · intro h
      cases out with
      | nil => rfl
      | cons b out => cases h
  | cons a as ih =>
    constructor
    · intro h
      rw [List.mapM_cons] at h
      cases ha : f a with
      | error e => rw [ha] at h; cases h
      | ok b =>
        cases hrest : as.mapM f with
        | error e => rw [ha, hrest] at h; cases h
        | ok bs =>
          rw [ha, hrest] at h
          cases h
          rw [List.map_cons, List.map_cons, ha, ih.mp hrest]
    · intro h
      cases out with
      | nil => cases h
      | cons b out =>
        obtain ⟨ha, hrest⟩ := List.cons.inj h
        rw [List.mapM_cons, ha, ih.mpr hrest]
        rfl

/-- Collecting fails with the failure of the first element that has one. -/
theorem mapM_eq_error_iff {e : Error} : as.mapM f = .error e ↔
    ∃ before a after, as = before ++ a :: after ∧ f a = .error e ∧
      ∀ b ∈ before, ∃ x, f b = .ok x := by
  induction as with
  | nil =>
    refine ⟨nofun, fun h => ?_⟩
    obtain ⟨before, a, after, has, -⟩ := h
    cases before <;> cases has
  | cons a as ih =>
    rw [List.mapM_cons]
    cases ha : f a with
    | error e' =>
      constructor
      · intro h
        cases h
        exact ⟨[], a, as, rfl, ha, nofun⟩
      · intro h
        obtain ⟨before, a', after, has, ha', hbefore⟩ := h
        cases before with
        | nil =>
          cases has
          cases ha.symm.trans ha'
          rfl
        | cons b before =>
          cases has
          obtain ⟨x, hx⟩ := hbefore a List.mem_cons_self
          cases ha.symm.trans hx
    | ok x =>
      have hrest : (as.mapM f >>= fun xs => pure (x :: xs)) = .error e ↔ as.mapM f = .error e := by
        cases as.mapM f with
        | error e' => exact Iff.rfl
        | ok xs => exact ⟨nofun, nofun⟩
      refine hrest.trans (ih.trans ?_)
      constructor
      · intro h
        obtain ⟨before, a', after, rfl, ha', hbefore⟩ := h
        exact ⟨a :: before, a', after, rfl, ha', List.forall_mem_cons.mpr ⟨⟨x, ha⟩, hbefore⟩⟩
      · intro h
        obtain ⟨before, a', after, has, ha', hbefore⟩ := h
        cases before with
        | nil =>
          cases has
          cases ha.symm.trans ha'
        | cons b before =>
          cases has
          exact ⟨before, a', after, rfl, ha', (List.forall_mem_cons.mp hbefore).2⟩

end Outcomes

/-! ## 2. Operations on one archive -/

/-- The operation keeps what an archive is read from, and the agreement with it. -/
def ReferenceArchive.Keeps {α : Type}
    (step : ReferenceArchive → Except Error α × ReferenceArchive) : Prop :=
  ∀ a, (step a).2.source = a.source ∧ (a.Coherent → (step a).2.Coherent)

theorem ReferenceArchive.keeps_run (call : ArchiveCall) : ReferenceArchive.Keeps call.run :=
  fun a => ⟨a.source_run call, fun h => h.run call⟩

theorem ReferenceArchive.version_run (call : ArchiveCall) (a : ReferenceArchive) :
    (call.run a).2.version = a.version :=
  congrArg ArchiveSource.version (a.source_run call)

/-- An archive that was opened by nobody else than its requests. -/
def ReferenceArchive.Reachable (a : ReferenceArchive) : Prop :=
  ∃ (s : ArchiveSource) (calls : List ArchiveCall), a = s.archive.after calls

theorem ReferenceArchive.Reachable.coherent {a : ReferenceArchive} (h : a.Reachable) :
    a.Coherent := by
  obtain ⟨s, calls, rfl⟩ := h
  exact (coherent_archive s).after calls

namespace VersionRegistry

/-! ## 3. Visits -/

section Visit

variable {α : Type} (selected : UInt32 → Bool)
  (step : ReferenceArchive → Except Error α × ReferenceArchive)

/-- The answers of a visit are those of the selected archives, up to the first failure. -/
theorem visitArchives_fst (as : List ReferenceArchive) :
    (visitArchives selected step as).1 =
      (as.filter fun a => selected a.version).mapM fun a => (step a).1 := by
  induction as with
  | nil => rfl
  | cons a as ih =>
    simp only [visitArchives]
    split
    · rename_i hsel
      rw [List.filter_cons, if_pos hsel, List.mapM_cons, ← ih]
      cases step a with
      | mk result b =>
        cases result with
        | error e => rfl
        | ok x =>
          show (visitArchives selected step as).1.map (x :: ·) = _
          cases (visitArchives selected step as).1 <;> rfl
    · rename_i hsel
      rw [List.filter_cons, if_neg hsel, ← ih]

/-- What the operation keeps of an archive, a visit keeps of every archive. -/
theorem map_visitArchives {β : Type} {f : ReferenceArchive → β} (hf : ∀ a, f (step a).2 = f a)
    (as : List ReferenceArchive) : (visitArchives selected step as).2.map f = as.map f := by
  induction as with
  | nil => rfl
  | cons a as ih =>
    have ha := hf a
    simp only [visitArchives]
    split
    · split <;> rename_i hb <;> rw [hb] at ha
      · rw [List.map_cons, List.map_cons, ha]
      · rw [List.map_cons, List.map_cons, ha, ih]
    · rw [List.map_cons, List.map_cons, ih]

/-- A property that the operation hands on is handed on by a visit. -/
theorem forall_visitArchives {P : ReferenceArchive → Prop} (hP : ∀ a, P a → P (step a).2)
    {as : List ReferenceArchive} (has : ∀ a ∈ as, P a) :
    ∀ b ∈ (visitArchives selected step as).2, P b := by
  induction as with
  | nil => intro b hb; cases hb
  | cons a as ih =>
    have ha := hP a (has a List.mem_cons_self)
    have hrest : ∀ b ∈ as, P b := fun b hb => has b (List.mem_cons_of_mem _ hb)
    intro b hb
    simp only [visitArchives] at hb
    split at hb
    · split at hb <;> rename_i hstep <;> rw [hstep] at ha <;>
        rcases List.mem_cons.mp hb with rfl | hb
      · exact ha
      · exact hrest b hb
      · exact ha
      · exact ih hrest b hb
    · rcases List.mem_cons.mp hb with rfl | hb
      · exact has b List.mem_cons_self
      · exact ih hrest b hb

variable {step} (hstep : ∀ a, (step a).2.version = a.version) (r : VersionRegistry)

theorem visit_fst :
    (r.visit selected step hstep).1 = (visitArchives selected step r.archives).1 := by
  unfold visit
  split
  rename_i h
  exact (congrArg Prod.fst h).symm

theorem archives_visit :
    (r.visit selected step hstep).2.archives = (visitArchives selected step r.archives).2 := by
  unfold visit
  split
  rename_i h
  exact (congrArg Prod.snd h).symm

end Visit

/-! ## 4. What a registry is read from -/

/-- What the archives are read from, in ascending order of their versions. -/
def sources (r : VersionRegistry) : List ArchiveSource := r.archives.map (·.source)

/-- Every archive agrees with its source. -/
def Coherent (r : VersionRegistry) : Prop := ∀ a ∈ r.archives, a.Coherent

/-- `r'` reads from where `r` reads, and agrees with it if `r` does. -/
def Follows (r r' : VersionRegistry) : Prop :=
  r'.sources = r.sources ∧ (r.Coherent → r'.Coherent)

theorem Follows.refl (r : VersionRegistry) : r.Follows r := ⟨rfl, id⟩

theorem Follows.trans {r s t : VersionRegistry} (h : r.Follows s) (h' : s.Follows t) :
    r.Follows t :=
  ⟨h'.1.trans h.1, fun hr => h'.2 (h.2 hr)⟩

/-- **A visit with an operation that keeps archives leads to a registry that follows.** -/
theorem follows_visit {α : Type} {step : ReferenceArchive → Except Error α × ReferenceArchive}
    (hkeeps : ReferenceArchive.Keeps step) (hstep : ∀ a, (step a).2.version = a.version)
    (selected : UInt32 → Bool) (r : VersionRegistry) :
    r.Follows (r.visit selected step hstep).2 := by
  refine ⟨?_, fun hr => ?_⟩
  · unfold sources
    rw [archives_visit]
    exact map_visitArchives selected step (fun a => (hkeeps a).1) r.archives
  · unfold Coherent
    rw [archives_visit]
    exact forall_visitArchives selected step (fun a => (hkeeps a).2) hr

/-- The versions of the sources ascend, and none occurs twice. -/
theorem pairwise_version_sources (r : VersionRegistry) :
    (r.sources.map (·.version)).Pairwise (· < ·) := by
  unfold sources
  rw [List.map_map]
  exact r.ascending

/-! ## 5. Building -/

theorem perm_of_insertArchive? {a : ReferenceArchive} {as bs : List ReferenceArchive}
    (h : insertArchive? a as = some bs) : bs.Perm (a :: as) := by
  induction as generalizing bs with
  | nil => cases h; exact List.Perm.refl _
  | cons x xs ih =>
    simp only [insertArchive?] at h
    split at h
    · cases h; exact List.Perm.refl _
    · split at h
      · obtain ⟨ys, hys, rfl⟩ := Option.map_eq_some_iff.1 h
        exact ((ih hys).cons x).trans (List.Perm.swap a x xs)
      · cases h

theorem archives_perm_of_add {r r' : VersionRegistry} {a : ReferenceArchive}
    (h : r.add a = .ok r') : r'.archives.Perm (a :: r.archives) := by
  unfold add at h
  split at h
  · rename_i as has
    cases h
    exact perm_of_insertArchive? has
  · cases h

theorem archives_perm_of_foldlM_add {as : List ReferenceArchive} {r r' : VersionRegistry}
    (h : as.foldlM add r = .ok r') : r'.archives.Perm (as ++ r.archives) := by
  induction as generalizing r with
  | nil => cases h; exact List.Perm.refl _
  | cons a as ih =>
    rw [List.foldlM_cons] at h
    cases hadd : r.add a with
    | error e => rw [hadd] at h; cases h
    | ok s =>
      rw [hadd] at h
      exact (ih h).trans
        (((archives_perm_of_add hadd).append_left as).trans List.perm_middle)

/-- A registry holds the archives that it is built from. -/
theorem archives_perm_of_ofArchives {as : List ReferenceArchive} {r : VersionRegistry}
    (h : ofArchives as = .ok r) : r.archives.Perm as := by
  have hperm := archives_perm_of_foldlM_add h
  rwa [show empty.archives = [] from rfl, List.append_nil] at hperm

/-- A registry of archives that agree with their sources agrees with its own. -/
theorem coherent_of_ofArchives {as : List ReferenceArchive} {r : VersionRegistry}
    (has : ∀ a ∈ as, a.Reachable) (h : ofArchives as = .ok r) : r.Coherent :=
  fun a ha => (has a ((archives_perm_of_ofArchives h).mem_iff.mp ha)).coherent

/-- An archive has a place in an ascending list exactly if its version is not there. -/
theorem exists_insertArchive?_iff {a : ReferenceArchive} {as : List ReferenceArchive}
    (has : Ascending as) :
    (∃ bs, insertArchive? a as = some bs) ↔ a.version ∉ as.map (·.version) := by
  induction as with
  | nil => exact ⟨fun _ => List.not_mem_nil, fun _ => ⟨[a], rfl⟩⟩
  | cons x xs ih =>
    obtain ⟨hx, hxs⟩ := List.pairwise_cons.mp has
    rw [List.map_cons, List.mem_cons, not_or]
    simp only [insertArchive?]
    by_cases hlt : a.version < x.version
    · -- the version is below all others
      rw [if_pos hlt]
      refine ⟨fun _ => ⟨(UInt32.ne_of_lt hlt), fun hmem => ?_⟩, fun _ => ⟨_, rfl⟩⟩
      exact UInt32.lt_irrefl _ (UInt32.lt_trans hlt (hx _ hmem))
    · rw [if_neg hlt]
      by_cases hgt : x.version < a.version
      · rw [if_pos hgt, and_iff_right (UInt32.ne_of_lt hgt).symm, ← ih hxs]
        constructor
        · rintro ⟨_, h⟩
          obtain ⟨bs, hbs, -⟩ := Option.map_eq_some_iff.mp h
          exact ⟨bs, hbs⟩
        · rintro ⟨bs, hbs⟩
          exact ⟨x :: bs, congrArg (Option.map _) hbs⟩
      · rw [if_neg hgt]
        have heq : a.version = x.version :=
          UInt32.le_antisymm (UInt32.not_lt.mp hgt) (UInt32.not_lt.mp hlt)
        constructor
        · intro h
          obtain ⟨bs, hbs⟩ := h
          cases hbs
        · intro h
          exact absurd heq h.1

theorem exists_add_iff {r : VersionRegistry} {a : ReferenceArchive} :
    (∃ r', r.add a = .ok r') ↔ a.version ∉ r.versions := by
  rw [versions, ← exists_insertArchive?_iff r.ascending]
  unfold add
  split
  · rename_i bs hbs
    exact ⟨fun _ => ⟨bs, hbs⟩, fun _ => ⟨_, rfl⟩⟩
  · rename_i hnone
    refine ⟨fun h => (nomatch h), fun ⟨bs, hbs⟩ => ?_⟩
    rw [hnone] at hbs
    cases hbs

theorem versions_perm_of_add {r r' : VersionRegistry} {a : ReferenceArchive}
    (h : r.add a = .ok r') : r'.versions.Perm (a.version :: r.versions) :=
  (archives_perm_of_add h).map _

theorem exists_foldlM_add_iff {as : List ReferenceArchive} {r : VersionRegistry} :
    (∃ r', as.foldlM add r = .ok r') ↔
      (as.map (·.version)).Nodup ∧ ∀ v ∈ as.map (·.version), v ∉ r.versions := by
  induction as generalizing r with
  | nil => exact ⟨fun _ => ⟨List.nodup_nil, nofun⟩, fun _ => ⟨r, rfl⟩⟩
  | cons a as ih =>
    rw [List.foldlM_cons, List.map_cons, List.nodup_cons, List.forall_mem_cons]
    cases hadd : r.add a with
    | error e =>
      have hmem : a.version ∈ r.versions := by
        refine Classical.byContradiction fun hnot => ?_
        obtain ⟨r', hr'⟩ := exists_add_iff.mpr hnot
        rw [hadd] at hr'
        cases hr'
      exact ⟨fun h => (nomatch h), fun h => absurd hmem h.2.1⟩
    | ok s =>
      have hnew : a.version ∉ r.versions := exists_add_iff.mp ⟨s, hadd⟩
      have hs : ∀ v, v ∈ s.versions ↔ v = a.version ∨ v ∈ r.versions := fun v =>
        (versions_perm_of_add hadd).mem_iff.trans List.mem_cons
      show (∃ r', as.foldlM add s = .ok r') ↔ _
      rw [ih]
      constructor
      · intro h
        obtain ⟨hnodup, hall⟩ := h
        exact ⟨⟨fun hmem => hall _ hmem ((hs _).mpr (Or.inl rfl)), hnodup⟩, hnew,
          fun v hv hmem => hall v hv ((hs v).mpr (Or.inr hmem))⟩
      · intro h
        obtain ⟨⟨hout, hnodup⟩, -, hall⟩ := h
        refine ⟨hnodup, fun v hv hmem => ?_⟩
        rcases (hs v).mp hmem with rfl | hmem
        · exact hout hv
        · exact hall v hv hmem

/-- **A registry is built exactly of archives of which no two have the same version.** -/
theorem exists_ofArchives_iff {as : List ReferenceArchive} :
    (∃ r, ofArchives as = .ok r) ↔ (as.map (·.version)).Nodup := by
  rw [ofArchives, exists_foldlM_add_iff]
  exact and_iff_left fun v _ => List.not_mem_nil

end VersionRegistry

/-! ## 6. Looking up -/

/-- In an ascending list there is one archive of a version. -/
theorem Ascending.filter_version {as : List ReferenceArchive} (h : Ascending as)
    {a : ReferenceArchive} (ha : a ∈ as) : (as.filter (·.version == a.version)) = [a] := by
  induction as with
  | nil => cases ha
  | cons x xs ih =>
    obtain ⟨hx, hxs⟩ := List.pairwise_cons.mp h
    have hlt : ∀ b ∈ xs, x.version < b.version := fun b hb => hx _ (List.mem_map_of_mem hb)
    rcases List.mem_cons.mp ha with rfl | ha
    · have hrest : xs.filter (·.version == a.version) = [] :=
        List.filter_eq_nil_iff.mpr fun b hb =>
          by simpa using (UInt32.ne_of_lt (hlt b hb)).symm
      rw [List.filter_cons, if_pos (beq_self_eq_true _), hrest]
    · have hne : ¬(x.version == a.version) = true := by
        simpa using UInt32.ne_of_lt (hlt a ha)
      rw [List.filter_cons, if_neg hne]
      exact ih hxs ha

namespace VersionRegistry

/-- The archive of a version is the one that has it. -/
theorem get?_version_of_mem {r : VersionRegistry} {a : ReferenceArchive} (ha : a ∈ r.archives) :
    r.get? a.version = some a := by
  rw [get?, ← List.head?_filter, r.ascending.filter_version ha]
  rfl

end VersionRegistry

end SdkConformance
