import SdkConformance.Proofs.Declaration.ValidationRuns

/-!
# Batches in any order

The declarations of a batch share one registry, and with it the archives that were opened and the
tables that are kept. Nothing says in which order they are worked on, nor that one of them is done
before the next one begins. Each of them is told what a fresh copy of the registry tells it alone.

* `VersionRegistry.Reachable`: the registries that arise by requests; `VersionRegistry.fresh`: the
  copy of a registry of which nothing is opened;
* `Batch.step`: one declaration goes on by one version; `Batch.run`: a schedule of such steps;
* `Batch.Agrees.step`, `Batch.Agrees.run`: every declaration of a batch has found what the versions
  behind it have;
* `batchAnswer_eq_fresh`: so a batch answers, in any order, what its declarations are answered
  alone.
-/

namespace SdkConformance

/-! ## 1. Reachable registries and fresh copies -/

namespace VersionRegistry

/-- The registry arises by requests from one that was built of archives. -/
def Reachable (r : VersionRegistry) : Prop :=
  ∃ (as : List ReferenceArchive) (start : VersionRegistry) (calls : List RegistryCall),
    (∀ a ∈ as, a.Reachable) ∧ ofArchives as = .ok start ∧ r = start.after calls

theorem after_concat (r : VersionRegistry) (calls : List RegistryCall) (call : RegistryCall) :
    r.after (calls ++ [call]) = call.run (r.after calls) := by
  induction calls generalizing r with
  | nil => rfl
  | cons c calls ih => exact ih (c.run r)

namespace Reachable

variable {r : VersionRegistry}

theorem coherent (h : r.Reachable) : r.Coherent := by
  obtain ⟨as, start, calls, has, hstart, rfl⟩ := h
  exact (start.follows_after calls).2 (coherent_of_ofArchives has hstart)

theorem run (h : r.Reachable) (call : RegistryCall) : (call.run r).Reachable := by
  obtain ⟨as, start, calls, has, hstart, rfl⟩ := h
  exact ⟨as, start, calls ++ [call], has, hstart, (start.after_concat calls call).symm⟩

end Reachable

/-- The copy of a registry of which nothing is opened and nothing kept. -/
def fresh (r : VersionRegistry) : VersionRegistry where
  archives := r.sources.map (·.archive)
  ascending := by
    unfold Ascending
    rw [List.map_map]
    exact r.pairwise_version_sources

@[simp] theorem sources_fresh (r : VersionRegistry) : r.fresh.sources = r.sources := by
  unfold fresh
  rw [sources, List.map_map]
  exact List.map_id r.sources

theorem coherent_fresh (r : VersionRegistry) : r.fresh.Coherent := by
  intro a ha
  obtain ⟨s, _, rfl⟩ := List.mem_map.mp ha
  exact ReferenceArchive.coherent_archive s

theorem validate_fresh (r : VersionRegistry) (m : DeclaredMethod) :
    (r.fresh.validate m).1 = m.reference r.sources := by
  rw [r.coherent_fresh.validate_fst, sources_fresh]

end VersionRegistry

/-! ## 2. Answers of lists -/

/-- The elements on both sides have the same images exactly if every left one has a partner. -/
theorem exists_map_eq_map_iff {α β γ : Type} {f : α → γ} {g : β → γ} {as : List α} :
    (∃ bs : List β, as.map f = bs.map g) ↔ ∀ a ∈ as, ∃ b, f a = g b := by
  constructor
  · rintro ⟨bs, h⟩ a ha
    have hmem : f a ∈ bs.map g := h ▸ List.mem_map_of_mem ha
    obtain ⟨b, _, hb⟩ := List.mem_map.mp hmem
    exact ⟨b, hb.symm⟩
  · intro h
    induction as with
    | nil => exact ⟨[], rfl⟩
    | cons a as ih =>
      obtain ⟨b, hb⟩ := h a List.mem_cons_self
      obtain ⟨bs, hbs⟩ := ih fun x hx => h x (List.mem_cons_of_mem _ hx)
      exact ⟨b :: bs, by rw [List.map_cons, List.map_cons, hb, hbs]⟩

/-! ## 3. One version after the other -/

namespace DeclaredMethod

variable (m : DeclaredMethod)

/-- The sources of the versions that a declaration is meant for. -/
def within (sources : List ArchiveSource) : List ArchiveSource :=
  sources.filter fun s => m.effectiveRange.contains s.version

/-- The differences from the class of a source. -/
def differencesAt (s : ArchiveSource) : List Diagnostic :=
  m.differences s.version (s.class? m.className)

theorem reference_of_open {sources : List ArchiveSource}
    (hopen : ∀ s ∈ m.within sources, s.failure? = none) :
    m.reference sources = .ok ((m.within sources).flatMap m.differencesAt) := by
  show m.differencesOver (m.within sources) = _
  rw [differencesOver, List.findSome?_eq_none_iff.mpr hopen]
  rfl

theorem reference_of_failure {sources passed ahead : List ArchiveSource} {s : ArchiveSource}
    {e : Error} (hparts : m.within sources = passed ++ s :: ahead)
    (hopen : ∀ s ∈ passed, s.failure? = none) (he : s.failure? = some e) :
    m.reference sources = .error e := by
  show m.differencesOver (m.within sources) = _
  rw [hparts, differencesOver, List.findSome?_append, List.findSome?_eq_none_iff.mpr hopen,
    List.findSome?_cons, he]
  rfl

variable {m}

/-- What ends a declaration is that one of its archives cannot be opened. -/
theorem archiveOpen_of_reference {sources : List ArchiveSource} {e : Error}
    (h : m.reference sources = .error e) :
    ∃ version path cause, e = .archiveOpen version path cause := by
  unfold reference differencesOver at h
  split at h
  · rename_i e' he'
    cases h
    obtain ⟨s, _, hs⟩ := List.exists_of_findSome?_eq_some he'
    unfold ArchiveSource.failure? at hs
    split at hs
    · cases hs
      exact ⟨_, _, _, rfl⟩
    · cases hs
  · cases h

end DeclaredMethod

namespace VersionRegistry

/-- Against a version that is there, validation answers the failure of opening or the
    differences from its class. -/
theorem Coherent.validateVersion_fst {r : VersionRegistry} (hr : r.Coherent) (m : DeclaredMethod)
    {s : ArchiveSource} (hs : s ∈ r.sources) :
    (r.validateVersion m s.version).1 = match s.failure? with
      | some e => .error e
      | none => .ok (some (m.differencesAt s)) := by
  obtain ⟨a, ha, rfl⟩ := List.mem_map.mp hs
  show (r.visit (· == a.version) _ (ReferenceArchive.version_validate m)).1.map List.head? = _
  rw [visit_fst, visitArchives_fst, r.ascending.filter_version ha, List.mapM_cons,
    (hr a ha).validate_fst m]
  cases a.source.failure? <;> rfl

/-- Declarations one after the other answer what the reference answers, up to the first that
    fails. -/
theorem Coherent.validateAll_fst {r : VersionRegistry} (hr : r.Coherent)
    (ms : List DeclaredMethod) :
    (r.validateAll ms).1 = ms.mapM fun m => m.reference r.sources := by
  induction ms generalizing r with
  | nil => rfl
  | cons m ms ih =>
    have hfollows : r.Follows (r.validate m).2 := r.follows_validateRange m m.effectiveRange
    have hfst := hr.validate_fst m
    rw [validateAll, List.mapM_cons, ← hfst]
    cases hm : r.validate m with
    | mk answer r' =>
      rw [hm] at hfollows
      cases answer with
      | error e => rfl
      | ok ds =>
        show (r'.validateAll ms).1.map (ds :: ·) = _
        rw [ih (hfollows.2 hr), hfollows.1]
        cases ms.mapM fun m => m.reference r.sources <;> rfl

end VersionRegistry

/-! ## 4. Batches -/

/-- A declaration that is being checked: the versions that are ahead of it, and what it has been
    answered so far. -/
structure Check where
  method : DeclaredMethod
  ahead : List UInt32
  found : Except Error (List Diagnostic)

namespace Check

/-- Goes on by one version, unless there is none or one has failed. -/
def step (c : Check) (r : VersionRegistry) : Check × VersionRegistry :=
  match c.found, c.ahead with
  | .ok ds, v :: vs =>
    let (answer, r') := r.validateVersion c.method v
    (⟨c.method, vs, answer.map fun more => ds ++ more.getD []⟩, r')
  | _, _ => (c, r)

/-- What the declaration is answered, once that is known. -/
def result? (c : Check) : Option (Except Error (List Diagnostic)) :=
  match c.found, c.ahead with
  | .error e, _ => some (.error e)
  | .ok ds, [] => some (.ok ds)
  | .ok _, _ :: _ => none

/-- The number of steps that are left. -/
def left (c : Check) : Nat :=
  match c.found with
  | .error _ => 0
  | .ok _ => c.ahead.length

@[simp] theorem method_step (c : Check) (r : VersionRegistry) :
    (c.step r).1.method = c.method := by
  unfold step
  split <;> rfl

/-- A step leaves the registry as it is or puts one request to it. -/
theorem step_snd (c : Check) (r : VersionRegistry) :
    (c.step r).2 = r ∨ ∃ call : RegistryCall, (c.step r).2 = call.run r := by
  unfold step
  split
  · rename_i v _ _ _
    exact Or.inr ⟨.validateVersion c.method v, rfl⟩
  · exact Or.inl rfl

theorem left_step (c : Check) (r : VersionRegistry) : (c.step r).1.left ≤ c.left - 1 := by
  obtain ⟨m, ahead, found⟩ := c
  cases found with
  | error e => exact Nat.le_refl _
  | ok ds =>
    cases ahead with
    | nil => exact Nat.le_refl _
    | cons v vs =>
      show left ⟨m, vs, (r.validateVersion m v).1.map _⟩ ≤ vs.length
      cases (r.validateVersion m v).1 with
      | error e => exact Nat.zero_le _
      | ok more => exact Nat.le_refl _

theorem exists_result?_of_left {c : Check} (h : c.left = 0) : ∃ x, c.result? = some x := by
  obtain ⟨m, ahead, found⟩ := c
  cases found with
  | error e => exact ⟨_, rfl⟩
  | ok ds =>
    cases ahead with
    | nil => exact ⟨_, rfl⟩
    | cons v vs => cases h

/-- **What a check has found agrees with the sources**: the versions behind it are open, and it
    has their differences; or it has the error of the reference. -/
inductive Agrees (sources : List ArchiveSource) : Check → Prop
  | going {m : DeclaredMethod} {passed ahead : List ArchiveSource}
      (hparts : m.within sources = passed ++ ahead)
      (hopen : ∀ s ∈ passed, s.failure? = none) :
      Agrees sources ⟨m, ahead.map (·.version), .ok (passed.flatMap m.differencesAt)⟩
  | failed {m : DeclaredMethod} {ahead : List UInt32} {e : Error}
      (he : m.reference sources = .error e) : Agrees sources ⟨m, ahead, .error e⟩

/-- **A step keeps the agreement.** -/
theorem Agrees.step {r : VersionRegistry} (hr : r.Coherent) {c : Check}
    (h : c.Agrees r.sources) : (c.step r).1.Agrees r.sources := by
  cases h with
  | failed he => exact .failed he
  | @going m passed ahead hparts hopen =>
    cases ahead with
    | nil => exact .going hparts hopen
    | cons s ahead =>
      have hs : s ∈ r.sources := by
        have hmem : s ∈ m.within r.sources := by
          rw [hparts]
          exact List.mem_append_right _ List.mem_cons_self
        exact (List.mem_filter.mp hmem).1
      have hanswer := hr.validateVersion_fst m hs
      show Agrees _ ⟨m, ahead.map (·.version), (r.validateVersion m s.version).1.map _⟩
      rw [hanswer]
      cases hfail : s.failure? with
      | some e => exact .failed (m.reference_of_failure hparts hopen hfail)
      | none =>
        -- the version is now one of those behind
        have hnext : m.within r.sources = (passed ++ [s]) ++ ahead := by
          rw [hparts, List.append_assoc]; rfl
        have hopen' : ∀ t ∈ passed ++ [s], t.failure? = none := by
          intro t ht
          rcases List.mem_append.mp ht with ht | ht
          · exact hopen t ht
          · rw [List.mem_singleton.mp ht, hfail]
        have hgoing := Agrees.going hnext hopen'
        rwa [List.flatMap_append, List.flatMap_singleton] at hgoing

/-- What a check answers is what the reference answers. -/
theorem Agrees.result {sources : List ArchiveSource} {c : Check} (h : c.Agrees sources)
    {x : Except Error (List Diagnostic)} (hx : c.result? = some x) :
    x = c.method.reference sources := by
  cases h with
  | failed he =>
    cases hx
    exact he.symm
  | @going m passed ahead hparts hopen =>
    cases ahead with
    | cons s ahead => cases hx
    | nil =>
      cases hx
      rw [List.append_nil] at hparts
      rw [← hparts] at hopen ⊢
      exact (m.reference_of_open hopen).symm

end Check

/-- A batch that is being worked off. -/
structure Batch where
  registry : VersionRegistry
  checks : List Check

namespace Batch

/-- A batch of which nothing is done. -/
def start (r : VersionRegistry) (ms : List DeclaredMethod) : Batch where
  registry := r
  checks := ms.map fun m => ⟨m, (r.inRange m.effectiveRange).map (·.version), .ok []⟩

/-- The declaration at a place goes on by one version. Look-ups in an archive exclude each other,
    so nothing happens in between. -/
def step (b : Batch) (i : Nat) : Batch :=
  match b.checks[i]? with
  | none => b
  | some c => ⟨(c.step b.registry).2, b.checks.set i (c.step b.registry).1⟩

/-- The places of a schedule, one after the other. -/
def run (b : Batch) : List Nat → Batch
  | [] => b
  | i :: schedule => (b.step i).run schedule

/-- The batch may end with this answer: with a list for each declaration if all are done, with an
    error as soon as one has failed with it. -/
def Answers (b : Batch) : Except Error (List (List Diagnostic)) → Prop
  | .ok out => b.checks.map (·.result?) = out.map fun ds => some (.ok ds)
  | .error e => ∃ c ∈ b.checks, c.result? = some (.error e)

/-- **The invariant of a batch**: the registry stays in agreement with the same sources, and the
    checks are those of the declarations and agree with them. -/
structure Agrees (sources : List ArchiveSource) (ms : List DeclaredMethod) (b : Batch) : Prop where
  coherent : b.registry.Coherent
  sources_eq : b.registry.sources = sources
  methods : b.checks.map (·.method) = ms
  checks : ∀ c ∈ b.checks, c.Agrees sources

theorem agrees_start {r : VersionRegistry} (hr : r.Coherent) (ms : List DeclaredMethod) :
    (start r ms).Agrees r.sources ms where
  coherent := hr
  sources_eq := rfl
  methods := by
    unfold start
    rw [List.map_map]
    exact List.map_id ms
  checks := by
    intro c hc
    obtain ⟨m, _, rfl⟩ := List.mem_map.mp hc
    have hahead : (r.inRange m.effectiveRange).map (·.version) =
        (m.within r.sources).map (·.version) := by
      rw [VersionRegistry.inRange, DeclaredMethod.within, VersionRegistry.sources, List.filter_map,
        List.map_map]
      simp only [SdkRange.selects_eq_contains]
      rfl
    rw [hahead]
    have hparts : m.within r.sources = [] ++ m.within r.sources := rfl
    exact Check.Agrees.going hparts (List.forall_mem_nil _)

variable {sources : List ArchiveSource} {ms : List DeclaredMethod} {b : Batch}

/-- The registry of a step is the old one or that after a request. -/
theorem registry_step (b : Batch) (i : Nat) : (b.step i).registry = b.registry ∨
    ∃ call : RegistryCall, (b.step i).registry = call.run b.registry := by
  unfold step
  split
  · exact Or.inl rfl
  · rename_i c _
    exact c.step_snd b.registry

theorem follows_registry_step (b : Batch) (i : Nat) : b.registry.Follows (b.step i).registry := by
  rcases b.registry_step i with h | ⟨call, h⟩
  · rw [h]
    exact .refl _
  · rw [h]
    exact b.registry.follows_run call

/-- **A step keeps the invariant.** -/
theorem Agrees.step (h : b.Agrees sources ms) (i : Nat) : (b.step i).Agrees sources ms := by
  have hfollows := b.follows_registry_step i
  refine ⟨hfollows.2 h.coherent, hfollows.1.trans h.sources_eq, ?_, ?_⟩
  · unfold Batch.step
    split
    · exact h.methods
    · rename_i c hc
      obtain ⟨hi, rfl⟩ := List.getElem?_eq_some_iff.mp hc
      have hi' : i < (b.checks.map (·.method)).length := by rwa [List.length_map]
      have hplace : (b.checks.map (·.method))[i] = b.checks[i].method := List.getElem_map _
      rw [List.map_set, Check.method_step, ← h.methods, ← hplace]
      exact List.set_getElem_self hi'
  · unfold Batch.step
    split
    · exact h.checks
    · rename_i c hc
      intro c' hc'
      rcases List.mem_or_eq_of_mem_set hc' with hc' | rfl
      · exact h.checks c' hc'
      · have hagrees := h.checks c (List.mem_of_getElem? hc)
        rw [← h.sources_eq] at hagrees ⊢
        exact hagrees.step h.coherent

/-- **A run keeps the invariant.** -/
theorem Agrees.run (h : b.Agrees sources ms) (schedule : List Nat) :
    (b.run schedule).Agrees sources ms := by
  induction schedule generalizing b with
  | nil => exact h
  | cons i schedule ih => exact ih (h.step i)

/-- **A batch leaves a registry that arises by requests**, wherever it is broken off. -/
theorem reachable_registry_run (h : b.registry.Reachable) (schedule : List Nat) :
    (b.run schedule).registry.Reachable := by
  induction schedule generalizing b with
  | nil => exact h
  | cons i schedule ih =>
    have hstep : (b.step i).registry.Reachable := by
      rcases b.registry_step i with hi | ⟨call, hi⟩
      · rw [hi]
        exact h
      · rw [hi]
        exact h.run call
    exact ih hstep

theorem length_checks_run (b : Batch) (schedule : List Nat) :
    (b.run schedule).checks.length = b.checks.length := by
  induction schedule generalizing b with
  | nil => rfl
  | cons i schedule ih =>
    have hstep : (b.step i).checks.length = b.checks.length := by
      unfold step
      split
      · rfl
      · exact List.length_set
    exact (ih (b.step i)).trans hstep

/-- Every turn of a place takes a step off what is left there. -/
theorem left_run {i : Nat} {c : Check} (hc : b.checks[i]? = some c) (schedule : List Nat) :
    ∃ c', (b.run schedule).checks[i]? = some c' ∧ c'.left ≤ c.left - schedule.count i := by
  induction schedule generalizing b c with
  | nil => exact ⟨c, hc, Nat.le_refl _⟩
  | cons j schedule ih =>
    by_cases hj : j = i
    · subst hj
      have hstep : (b.step j).checks[j]? = some (c.step b.registry).1 := by
        unfold step
        rw [hc]
        exact List.getElem?_set_self (List.getElem?_eq_some_iff.mp hc).1
      obtain ⟨c', hc', hleft⟩ := ih hstep
      refine ⟨c', hc', ?_⟩
      have hone := c.left_step b.registry
      rw [List.count_cons_self]
      omega
    · have hstep : (b.step j).checks[i]? = some c := by
        unfold step
        split
        · exact hc
        · rw [← hc]
          exact List.getElem?_set_ne hj
      rw [List.count_cons_of_ne hj]
      exact ih hstep

/-- Once every check is answered, the batch is. -/
theorem exists_answers (h : ∀ c ∈ b.checks, ∃ x, c.result? = some x) :
    ∃ answer, b.Answers answer := by
  by_cases hfail : ∃ c ∈ b.checks, ∃ e, c.result? = some (.error e)
  · obtain ⟨c, hc, e, he⟩ := hfail
    exact ⟨.error e, c, hc, he⟩
  · have hok : ∀ c ∈ b.checks, ∃ ds, c.result? = some (.ok ds) := by
      intro c hc
      obtain ⟨x, hx⟩ := h c hc
      cases x with
      | error e => exact absurd ⟨c, hc, e, hx⟩ hfail
      | ok ds => exact ⟨ds, hx⟩
    obtain ⟨out, hout⟩ := exists_map_eq_map_iff.mpr hok
    exact ⟨.ok out, hout⟩

/-- A schedule that gives every declaration a turn for every version comes to an answer. -/
theorem exists_answers_run {r : VersionRegistry} {schedule : List Nat}
    (h : ∀ i < ms.length, r.size ≤ schedule.count i) :
    ∃ answer, ((start r ms).run schedule).Answers answer := by
  refine exists_answers fun c hc => ?_
  obtain ⟨i, hi⟩ := List.mem_iff_getElem?.mp hc
  have hlt : i < ms.length := by
    have hlength := (start r ms).length_checks_run schedule
    rw [show (start r ms).checks.length = ms.length from List.length_map _] at hlength
    exact hlength ▸ (List.getElem?_eq_some_iff.mp hi).1
  have hstart : (start r ms).checks[i]? =
      some ⟨ms[i], (r.inRange ms[i].effectiveRange).map (·.version), .ok []⟩ := by
    unfold start
    rw [List.getElem?_map, List.getElem?_eq_getElem hlt]
    rfl
  obtain ⟨c', hc', hleft⟩ := left_run hstart schedule
  cases hc'.symm.trans hi
  -- there are no more versions in the range than there are in the registry
  have hversions : ((r.inRange ms[i].effectiveRange).map (·.version)).length ≤ r.size := by
    rw [List.length_map]
    exact List.length_filter_le _ _
  have hzero : ((r.inRange ms[i].effectiveRange).map (·.version)).length - schedule.count i = 0 :=
    Nat.sub_eq_zero_of_le (Nat.le_trans hversions (h i hlt))
  exact Check.exists_result?_of_left (Nat.eq_zero_of_le_zero (hzero ▸ hleft))

/-- A check of a batch that is answered is answered by the reference. -/
theorem Agrees.result (h : b.Agrees sources ms) {i : Nat} {c : Check} (hc : b.checks[i]? = some c)
    {x : Except Error (List Diagnostic)} (hx : c.result? = some x) :
    ∃ m, ms[i]? = some m ∧ x = m.reference sources := by
  refine ⟨c.method, ?_, (h.checks c (List.mem_of_getElem? hc)).result hx⟩
  rw [← h.methods, List.getElem?_map, hc]
  rfl

/-- The lists that a batch answers are those of the reference. -/
theorem Agrees.answers_ok (h : b.Agrees sources ms) {out : List (List Diagnostic)}
    (hout : b.Answers (.ok out)) : (ms.map fun m => m.reference sources) = out.map .ok := by
  have hresults : b.checks.map (·.result?) = out.map fun ds => some (.ok ds) := hout
  refine List.ext_getElem? fun i => ?_
  have hi := congrArg (·[i]?) hresults
  simp only [List.getElem?_map] at hi ⊢
  rw [← h.methods, List.getElem?_map]
  cases hc : b.checks[i]? with
  | none =>
    rw [hc] at hi
    cases ho : out[i]? with
    | none => rfl
    | some ds => rw [ho] at hi; cases hi
  | some c =>
    rw [hc] at hi
    cases ho : out[i]? with
    | none => rw [ho] at hi; cases hi
    | some ds =>
      rw [ho] at hi
      have hresult := (h.checks c (List.mem_of_getElem? hc)).result (Option.some.inj hi)
      exact congrArg some hresult.symm

/-- The error that a batch answers is that of the reference for one of the declarations. -/
theorem Agrees.answers_error (h : b.Agrees sources ms) {e : Error} (he : b.Answers (.error e)) :
    ∃ m ∈ ms, m.reference sources = .error e := by
  obtain ⟨c, hc, hx⟩ := he
  refine ⟨c.method, ?_, ((h.checks c hc).result hx).symm⟩
  rw [← h.methods]
  exact List.mem_map_of_mem hc

end Batch

/-! ## 5. Batches and fresh copies -/

/-- What a batch can be answered: one declaration after the other, or by any schedule. -/
inductive VersionRegistry.BatchAnswer (r : VersionRegistry) (ms : List DeclaredMethod) :
    Except Error (List (List Diagnostic)) → Prop
  | inOrder : BatchAnswer r ms (r.validateAll ms).1
  | scheduled {schedule : List Nat} {answer : Except Error (List (List Diagnostic))}
      (h : ((Batch.start r ms).run schedule).Answers answer) : BatchAnswer r ms answer

namespace VersionRegistry.BatchAnswer

variable {r : VersionRegistry} {ms : List DeclaredMethod}

theorem map_reference (hr : r.Coherent) {out : List (List Diagnostic)}
    (h : r.BatchAnswer ms (.ok out)) : (ms.map fun m => m.reference r.sources) = out.map .ok := by
  generalize hanswer : (Except.ok out : Except Error (List (List Diagnostic))) = answer at h
  cases h with
  | inOrder =>
    rw [hr.validateAll_fst] at hanswer
    exact mapM_eq_ok_iff.mp hanswer.symm
  | scheduled h =>
    rw [← hanswer] at h
    exact ((Batch.agrees_start hr ms).run _).answers_ok h

theorem exists_reference (hr : r.Coherent) {e : Error} (h : r.BatchAnswer ms (.error e)) :
    ∃ m ∈ ms, m.reference r.sources = .error e := by
  generalize hanswer : (Except.error e : Except Error (List (List Diagnostic))) = answer at h
  cases h with
  | inOrder =>
    rw [hr.validateAll_fst] at hanswer
    obtain ⟨before, m, after, hms, hm, -⟩ := mapM_eq_error_iff.mp hanswer.symm
    exact ⟨m, hms ▸ List.mem_append_right _ List.mem_cons_self, hm⟩
  | scheduled h =>
    rw [← hanswer] at h
    exact ((Batch.agrees_start hr ms).run _).answers_error h

/-- A batch succeeds exactly if the reference does for every declaration. -/
theorem exists_eq_ok_iff (hr : r.Coherent) {answer : Except Error (List (List Diagnostic))}
    (h : r.BatchAnswer ms answer) :
    (∃ out, answer = .ok out) ↔ ∀ m ∈ ms, ∃ ds, m.reference r.sources = .ok ds := by
  cases answer with
  | ok out =>
    have hall := exists_map_eq_map_iff.mp ⟨out, h.map_reference hr⟩
    exact ⟨fun _ => hall, fun _ => ⟨out, rfl⟩⟩
  | error e =>
    obtain ⟨m, hm, he⟩ := h.exists_reference hr
    refine ⟨nofun, fun hall => ?_⟩
    obtain ⟨ds, hds⟩ := hall m hm
    cases hds.symm.trans he

/-- The batch of the declarations at some places lists what the batch lists there. -/
theorem eq_ok_of_places (hr : r.Coherent) {out : List (List Diagnostic)}
    (hout : r.BatchAnswer ms (.ok out)) {places : List Nat}
    {answer : Except Error (List (List Diagnostic))}
    (h : r.BatchAnswer (places.filterMap (ms[·]?)) answer) :
    answer = .ok (places.filterMap (out[·]?)) := by
  have hmap := hout.map_reference hr
  have hplaces : ((places.filterMap (ms[·]?)).map fun m => m.reference r.sources) =
      (places.filterMap (out[·]?)).map .ok := by
    rw [List.map_filterMap, List.map_filterMap]
    simp only [← List.getElem?_map, hmap]
  obtain ⟨out', rfl⟩ := (h.exists_eq_ok_iff hr).mpr (exists_map_eq_map_iff.mp ⟨_, hplaces⟩)
  have hout' := (h.map_reference hr).symm.trans hplaces
  exact congrArg _ ((List.map_inj_right fun _ _ => Except.ok.inj).mp hout')

end VersionRegistry.BatchAnswer

/-- **A batch answers what its declarations are answered alone**, each by a fresh copy of the
    registry, in whatever order it is worked off. It succeeds exactly if they all do, and then it
    lists their differences in the order of the declarations; else its error is that of an archive
    that one of them cannot open. A batch of the declarations at some places, so a batch in another
    order, lists what the batch lists at these places. In no schedule is a declaration answered
    anything else, and every schedule with enough turns comes to an answer. Wherever it is broken
    off, the registry is left in a state of which all this holds again. -/
theorem batchAnswer_eq_fresh {r : VersionRegistry} (hr : r.Reachable) (ms : List DeclaredMethod) :
    (∀ answer, r.BatchAnswer ms answer →
      ((∃ out, answer = .ok out) ↔ ∀ m ∈ ms, ∃ ds, (r.fresh.validate m).1 = .ok ds) ∧
      (∀ out, answer = .ok out → out.map .ok = ms.map fun m => (r.fresh.validate m).1) ∧
      ∀ e, answer = .error e →
        (∃ version path cause, e = .archiveOpen version path cause) ∧
        ∃ m ∈ ms, (r.fresh.validate m).1 = .error e) ∧
    (∀ out, r.BatchAnswer ms (.ok out) → ∀ places : List Nat, ∀ answer,
      r.BatchAnswer (places.filterMap (ms[·]?)) answer →
        answer = .ok (places.filterMap (out[·]?))) ∧
    ∀ schedule : List Nat,
      ((Batch.start r ms).run schedule).registry.Reachable ∧
      (∀ (i : Nat) (c : Check) x, ((Batch.start r ms).run schedule).checks[i]? = some c →
        c.result? = some x → ∃ m, ms[i]? = some m ∧ x = (r.fresh.validate m).1) ∧
      ((∀ i < ms.length, r.size ≤ schedule.count i) →
        ∃ answer, ((Batch.start r ms).run schedule).Answers answer) := by
  have hcoherent := hr.coherent
  simp only [VersionRegistry.validate_fresh]
  refine ⟨fun answer h => ⟨h.exists_eq_ok_iff hcoherent, ?_, ?_⟩,
    fun out hout places answer h => hout.eq_ok_of_places hcoherent h,
    fun schedule => ⟨?_, ?_, ?_⟩⟩
  · intro out hout
    rw [hout] at h
    exact (h.map_reference hcoherent).symm
  · intro e he
    rw [he] at h
    obtain ⟨m, hm, hreference⟩ := h.exists_reference hcoherent
    exact ⟨DeclaredMethod.archiveOpen_of_reference hreference, m, hm, hreference⟩
  · exact Batch.reachable_registry_run hr schedule
  · intro i c x hc hx
    exact ((Batch.agrees_start hcoherent ms).run schedule).result hc hx
  · exact Batch.exists_answers_run

/-- A declaration without parameters for the versions up to 22, or for all. -/
def DeclaredMethod.plain (className : String) (upTo : Option UInt32) : DeclaredMethod :=
  ⟨className, "m", [], false, "void", ⟨none, upTo⟩, .unbounded⟩

/-- A bare source and one that cannot be opened, after a batch has failed at it. Two declarations
    up to 22 are both told that their classes are not there, in either order, and alternating steps
    come to an answer; with a declaration for all versions beside one, every answer is the
    failure. -/
theorem batchAnswer_bare_and_lost :
    ∃ r : VersionRegistry, r.Reachable ∧
      (∀ answer, r.BatchAnswer [.plain "a.B" (some 22), .plain "a.C" (some 22)] answer →
        answer = .ok [[.classNotFound "a.B" 21], [.classNotFound "a.C" 21]]) ∧
      (∀ answer, r.BatchAnswer [.plain "a.C" (some 22), .plain "a.B" (some 22)] answer →
        answer = .ok [[.classNotFound "a.C" 21], [.classNotFound "a.B" 21]]) ∧
      (∃ answer, ((Batch.start r [.plain "a.B" (some 22), .plain "a.C" (some 22)]).run
        [1, 0, 1, 0]).Answers answer) ∧
      (∀ answer, r.BatchAnswer [.plain "a.B" (some 22), .plain "a.B" none] answer →
        answer = .error (.archiveOpen 23 "23.jar" (Error.file .notFound).asCause)) := by
  have has : ∀ a ∈ [ArchiveSource.lost.archive, ArchiveSource.bare.archive], a.Reachable := by
    intro a ha
    rcases List.mem_cons.mp ha with rfl | ha
    · exact ⟨.lost, [], rfl⟩
    · rw [List.mem_singleton.mp ha]
      exact ⟨.bare, [], rfl⟩
  obtain ⟨start, hstart, hstartSources⟩ : ∃ start : VersionRegistry, VersionRegistry.ofArchives
      [ArchiveSource.lost.archive, ArchiveSource.bare.archive] = .ok start ∧
      start.sources = [.bare, .lost] := ⟨_, rfl, rfl⟩
  obtain ⟨r, hr, hsources⟩ : ∃ r : VersionRegistry, r.Reachable ∧ r.sources = [.bare, .lost] :=
    ⟨start.after [.validateAll [.plain "a.B" none]], ⟨_, start, _, has, hstart, rfl⟩,
      (start.follows_after _).1.trans hstartSources⟩
  have hB : (r.fresh.validate (.plain "a.B" (some 22))).1 = .ok [.classNotFound "a.B" 21] := by
    rw [r.validate_fresh, hsources]; rfl
  have hC : (r.fresh.validate (.plain "a.C" (some 22))).1 = .ok [.classNotFound "a.C" 21] := by
    rw [r.validate_fresh, hsources]; rfl
  have hall : (r.fresh.validate (.plain "a.B" none)).1 =
      .error (.archiveOpen 23 "23.jar" (Error.file .notFound).asCause) := by
    rw [r.validate_fresh, hsources]; rfl
  have hBC : ∀ answer, r.BatchAnswer [.plain "a.B" (some 22), .plain "a.C" (some 22)] answer →
      answer = .ok [[.classNotFound "a.B" 21], [.classNotFound "a.C" 21]] := by
    intro answer h
    obtain ⟨hiff, hok, -⟩ := (batchAnswer_eq_fresh hr _).1 answer h
    obtain ⟨out, rfl⟩ := hiff.mpr (by simp [hB, hC])
    have hout := hok out rfl
    simp only [List.map_cons, List.map_nil, hB, hC] at hout
    exact congrArg _ ((List.map_inj_right fun _ _ => Except.ok.inj).mp hout)
  have hsize : r.size = 2 := by
    rw [VersionRegistry.size, ← List.length_map (·.source)]
    exact congrArg List.length hsources
  refine ⟨r, hr, hBC, ?_, ?_, ?_⟩
  · intro answer h
    have hout : r.BatchAnswer [.plain "a.B" (some 22), .plain "a.C" (some 22)]
        (.ok [[.classNotFound "a.B" 21], [.classNotFound "a.C" 21]]) :=
      hBC _ .inOrder ▸ .inOrder
    exact (batchAnswer_eq_fresh hr _).2.1 _ hout [1, 0] answer h
  · exact ((batchAnswer_eq_fresh hr _).2.2 [1, 0, 1, 0]).2.2 (hsize ▸ by decide)
  · intro answer h
    obtain ⟨hiff, -, herror⟩ := (batchAnswer_eq_fresh hr _).1 answer h
    cases answer with
    | ok out =>
      obtain ⟨ds, hds⟩ := hiff.mp ⟨out, rfl⟩ (.plain "a.B" none) (by simp)
      cases hds.symm.trans hall
    | error e =>
      obtain ⟨-, m, hm, he⟩ := herror e rfl
      rcases List.mem_cons.mp hm with rfl | hm
      · cases hB.symm.trans he
      · rw [List.mem_singleton.mp hm] at he
        exact congrArg _ (Except.error.inj (he.symm.trans hall))

end SdkConformance
