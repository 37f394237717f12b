import Mathlib.Algebra.Ring.Nat
import SdkConformance.Proofs.Sdk.ArchiveRuns
import SdkConformance.Proofs.Signature.Histories

/-!
# What a run of an archive costs

An archive counts how often it called its loader and how many entries it read. This file keeps the
accounts of any run, also where the world outside changes on the way: a loader may answer otherwise
when it is called again, and so may a reader that is open.

* `World`, `Turn`: the answers from outside while a request is met, and the request;
* `ReferenceArchive.Counts`: the accounts of an archive that could be opened; `Counts.run` is the
  step of a run, `Counts.after` the run;
* `ReferenceArchive.Sealed`: an archive that could not be opened, which nothing changes any more;
* `accounts_after_turns`: one opening decides about the whole run.
-/

namespace SdkConformance

/-! ## 1. Requests in a world that changes -/

/-- What is answered from outside at a time. -/
structure World where
  /-- How the loader ends if it is called. -/
  loader : Loader
  /-- What a reader that is open answers. -/
  reader : EntryReader

/-- A request, and the world in which it is met. -/
structure Turn where
  world : World
  call : ArchiveCall

/-- The class names of the request that are looked up. -/
def ArchiveCall.lookedUp : ArchiveCall → List String
  | .opening => []
  | .lookup n => [n]
  | .classFile _ => []

/-- How many classes the request reads without keeping them. -/
def ArchiveCall.classReads : ArchiveCall → Nat
  | .opening => 0
  | .lookup _ => 0
  | .classFile _ => 1

namespace ReferenceArchive

/-- The archive in another world. -/
def within (a : ReferenceArchive) (w : World) : ReferenceArchive :=
  { a with
    loader := w.loader
    state := match a.state with
      | .opened _ => .opened w.reader
      | state => state }

/-- The archive after some turns. -/
def afterTurns (a : ReferenceArchive) : List Turn → ReferenceArchive
  | [] => a
  | t :: turns => (t.call.run (a.within t.world)).2.afterTurns turns

/-- The answers of some turns, one after the other. -/
def traceTurns (a : ReferenceArchive) : List Turn → List (Except Error ArchiveAnswer)
  | [] => []
  | t :: turns =>
    (t.call.run (a.within t.world)).1 :: (t.call.run (a.within t.world)).2.traceTurns turns

/-! ## 2. One request -/

variable {a : ReferenceArchive}

theorem ensureOpen_of_opened {reader : EntryReader} (h : a.state = .opened reader) :
    a.ensureOpen = (.ok reader, a) := by
  unfold ensureOpen
  rw [h]

theorem ensureOpen_of_failed {cause : String} (h : a.state = .failed cause) :
    a.ensureOpen = (.error (a.openError cause), a) := by
  unfold ensureOpen
  rw [h]

theorem ensureOpen_of_loader_ok {reader : EntryReader} (h : a.state = .untried)
    (hloader : a.loader a.path = .ok reader) :
    a.ensureOpen = (.ok reader, { a with state := .opened reader, opens := a.opens + 1 }) := by
  unfold ensureOpen
  rw [h, hloader]

theorem ensureOpen_of_loader_error {e : Error} (h : a.state = .untried)
    (hloader : a.loader a.path = .error e) :
    a.ensureOpen = (.error (a.openError e.asCause),
      { a with state := .failed e.asCause, opens := a.opens + 1 }) := by
  unfold ensureOpen
  rw [h, hloader]

/-- Opening again answers the same, and changes nothing. -/
theorem ensureOpen_ensureOpen (a : ReferenceArchive) :
    a.ensureOpen.2.ensureOpen = a.ensureOpen := by
  cases hstate : a.state with
  | opened reader => rw [ensureOpen_of_opened hstate, ensureOpen_of_opened hstate]
  | failed cause => rw [ensureOpen_of_failed hstate, ensureOpen_of_failed hstate]
  | untried =>
    cases hloader : a.loader a.path with
    | ok reader =>
      rw [ensureOpen_of_loader_ok hstate hloader]
      exact ensureOpen_of_opened rfl
    | error e =>
      rw [ensureOpen_of_loader_error hstate hloader]
      exact ensureOpen_of_failed rfl

theorem openError_ensureOpen (a : ReferenceArchive) :
    a.ensureOpen.2.openError = a.openError := by
  obtain ⟨state, opens, h⟩ := a.ensureOpen_snd
  rw [h]
  rfl

theorem run_opening (a : ReferenceArchive) :
    ArchiveCall.opening.run a = (a.ensureOpen.1.map fun _ => .opened, a.ensureOpen.2) := by
  show (a.open?.1.map _, a.open?.2) = _
  rw [open?_fst, open?_snd]
  cases a.ensureOpen.1 <;> rfl

theorem run_lookup (a : ReferenceArchive) (n : String) :
    (ArchiveCall.lookup n).run a = ((a.lookupClass n).1.map .table, (a.lookupClass n).2) := rfl

theorem run_classFile (a : ReferenceArchive) (n : String) :
    (ArchiveCall.classFile n).run a = ((a.classFile n).1.map .classFile, (a.classFile n).2) := rfl

theorem classFile_of_opened {reader : EntryReader} (h : a.state = .opened reader) (n : String) :
    a.classFile n = (.ok (reader.classOf n), { a with reads := a.reads + 1 }) := by
  unfold classFile
  rw [ensureOpen_of_opened h]

theorem lookupClass_of_opened {reader : EntryReader} (h : a.state = .opened reader) {n : String}
    (hn : a.classes[n]? = none) :
    a.lookupClass n = (.ok ((reader.classOf n).map SignatureTable.ofClass),
      { a with
        reads := a.reads + 1
        classes := a.classes.insert n ((reader.classOf n).map SignatureTable.ofClass) }) := by
  unfold lookupClass
  rw [hn, classFile_of_opened h]

/-- A request to an archive that keeps no class is met as after opening. -/
theorem run_ensureOpen (h : ∀ n : String, a.classes[n]? = none) (call : ArchiveCall) :
    call.run a.ensureOpen.2 = call.run a := by
  have hclass : ∀ n, a.ensureOpen.2.classFile n = a.classFile n := by
    intro n
    unfold classFile
    rw [ensureOpen_ensureOpen]
  cases call with
  | opening => rw [run_opening, run_opening, ensureOpen_ensureOpen]
  | lookup n =>
    rw [run_lookup, run_lookup]
    unfold lookupClass
    rw [classes_ensureOpen, h n, hclass]
  | classFile n => rw [run_classFile, run_classFile, hclass]

/-- **Reading a class neither asks what is kept nor changes it.** -/
theorem classFile_with_classes (a : ReferenceArchive)
    (classes : Std.HashMap String (Option SignatureTable)) (n : String) :
    { a with classes := classes }.classFile n =
      ((a.classFile n).1, { (a.classFile n).2 with classes := classes }) := by
  obtain ⟨version, path, loader, state, kept, opens, reads⟩ := a
  cases state with
  | opened reader => rfl
  | failed cause => rfl
  | untried =>
    unfold classFile ensureOpen
    simp only
    cases loader path <;> rfl

/-! ## 3. An archive that could be opened -/

/-- **The accounts of an archive that is open**, after these class names were looked up and so many
    classes were read besides. -/
structure Counts (a : ReferenceArchive) (names : List String) (files : Nat) : Prop where
  opened : ∃ reader, a.state = .opened reader
  opens : a.opens = 1
  classes : ∀ n, n ∈ a.classes ↔ n ∈ names
  reads : a.reads = a.classes.size + files

namespace Counts

variable {names : List String} {files : Nat}

theorem within (h : a.Counts names files) (w : World) : (a.within w).Counts names files := by
  obtain ⟨reader, hstate⟩ := h.opened
  refine ⟨⟨w.reader, ?_⟩, h.opens, h.classes, h.reads⟩
  unfold ReferenceArchive.within
  rw [hstate]

/-- A class name that was looked up already costs nothing. -/
theorem lookupClass_snd (h : a.Counts names files) {n : String} (hn : n ∈ names) :
    (a.lookupClass n).2 = a := by
  have hmem := (h.classes n).mpr hn
  rw [Std.HashMap.mem_iff_isSome_getElem?, Option.isSome_iff_exists] at hmem
  obtain ⟨found, hfound⟩ := hmem
  rw [lookupClass_of_kept hfound]

/-- **A step keeps the accounts**, and is answered. -/
theorem run (h : a.Counts names files) (call : ArchiveCall) :
    (∃ answer, (call.run a).1 = .ok answer) ∧
      (call.run a).2.Counts (names ++ call.lookedUp) (files + call.classReads) := by
  obtain ⟨reader, hstate⟩ := h.opened
  cases call with
  | opening =>
    rw [run_opening, ensureOpen_of_opened hstate, ArchiveCall.lookedUp, List.append_nil]
    exact ⟨⟨_, rfl⟩, h⟩
  | classFile n =>
    rw [run_classFile, classFile_of_opened hstate, ArchiveCall.lookedUp, List.append_nil]
    exact ⟨⟨_, rfl⟩, ⟨reader, hstate⟩, h.opens, h.classes, congrArg (· + 1) h.reads⟩
  | lookup n =>
    cases hn : a.classes[n]? with
    | some found =>
      have hmem : n ∈ names := by
        rw [← h.classes, Std.HashMap.mem_iff_isSome_getElem?, hn]
        rfl
      rw [run_lookup, lookupClass_of_kept hn]
      refine ⟨⟨_, rfl⟩, h.opened, h.opens, fun k => ?_, h.reads⟩
      rw [h.classes, ArchiveCall.lookedUp, List.mem_append, List.mem_singleton]
      exact ⟨Or.inl, fun hk => hk.elim id fun heq => heq ▸ hmem⟩
    | none =>
      have hnew : n ∉ a.classes := by
        rw [Std.HashMap.mem_iff_isSome_getElem?, hn]
        nofun
      rw [run_lookup, lookupClass_of_opened hstate hn]
      refine ⟨⟨_, rfl⟩, ⟨reader, hstate⟩, h.opens, fun k => ?_, ?_⟩
      · rw [Std.HashMap.mem_insert, h.classes, ArchiveCall.lookedUp, List.mem_append,
          List.mem_singleton, beq_iff_eq]
        exact ⟨fun hk => hk.symm.imp_right Eq.symm, fun hk => (hk.imp_right Eq.symm).symm⟩
      · show a.reads + 1 = (a.classes.insert n _).size + files
        rw [Std.HashMap.size_insert, if_neg hnew, h.reads]
        omega

/-- **A run keeps the accounts**, and is answered throughout. -/
theorem after (h : a.Counts names files) (turns : List Turn) :
    (∀ x ∈ a.traceTurns turns, ∃ answer, x = .ok answer) ∧
      (a.afterTurns turns).Counts (names ++ turns.flatMap (·.call.lookedUp))
        (files + (turns.map (·.call.classReads)).sum) := by
  induction turns generalizing a names files with
  | nil =>
    rw [List.flatMap_nil, List.append_nil]
    exact ⟨nofun, h⟩
  | cons t turns ih =>
    obtain ⟨hanswer, hcounts⟩ := (h.within t.world).run t.call
    obtain ⟨hanswers, hafter⟩ := ih hcounts
    rw [List.flatMap_cons, ← List.append_assoc, List.map_cons, List.sum_cons, ← Nat.add_assoc]
    exact ⟨List.forall_mem_cons.mpr ⟨hanswer, hanswers⟩, hafter⟩

theorem cachedClasses_eq (h : a.Counts names files) : a.cachedClasses = names.toFinset.card :=
  size_eq_card a.classes _ fun n => (h.classes n).trans List.mem_toFinset.symm

end Counts

/-! ## 4. An archive that could not be opened -/

/-- The failure to open is known, and nothing was read or kept. -/
structure Sealed (a : ReferenceArchive) (cause : String) : Prop where
  state : a.state = .failed cause
  opens : a.opens = 1
  classes : ∀ n : String, a.classes[n]? = none
  reads : a.reads = 0

namespace Sealed

variable {cause : String}

theorem within (h : a.Sealed cause) (w : World) : (a.within w).Sealed cause := by
  refine ⟨?_, h.opens, h.classes, h.reads⟩
  unfold ReferenceArchive.within
  rw [h.state]

/-- **A step changes nothing**, and is answered with the failure. -/
theorem run (h : a.Sealed cause) (call : ArchiveCall) :
    call.run a = (.error (a.openError cause), a) := by
  have hclass : ∀ n, a.classFile n = (.error (a.openError cause), a) := by
    intro n
    unfold classFile
    rw [ensureOpen_of_failed h.state]
  cases call with
  | opening =>
    rw [run_opening, ensureOpen_of_failed h.state]
    rfl
  | lookup n =>
    rw [run_lookup]
    unfold lookupClass
    rw [h.classes n, hclass]
    rfl
  | classFile n =>
    rw [run_classFile, hclass]
    rfl

/-- **A run changes nothing**, and is answered with the failure throughout. -/
theorem after (h : a.Sealed cause) (turns : List Turn) :
    a.traceTurns turns = turns.map (fun _ => .error (a.openError cause)) ∧
      (a.afterTurns turns).Sealed cause := by
  induction turns generalizing a with
  | nil => exact ⟨rfl, h⟩
  | cons t turns ih =>
    have hrun := (h.within t.world).run t.call
    obtain ⟨htrace, hafter⟩ := ih (h.within t.world)
    rw [traceTurns, afterTurns, hrun, List.map_cons]
    exact ⟨congrArg _ htrace, hafter⟩

theorem cachedClasses_eq (h : a.Sealed cause) : a.cachedClasses = 0 :=
  size_eq_card a.classes ∅ fun n => by
    rw [Std.HashMap.mem_iff_isSome_getElem?, h.classes n]
    simp

end Sealed

/-! ## 5. The first request -/

variable {s : ArchiveSource} {t : Turn}

theorem getElem?_classes_archive (s : ArchiveSource) (w : World) (n : String) :
    (s.archive.within w).classes[n]? = none :=
  Std.HashMap.getElem?_empty

/-- The first turn is met as by an archive that was opened in its world. -/
theorem run_first (s : ArchiveSource) (t : Turn) :
    t.call.run (s.archive.within t.world) =
      t.call.run (s.archive.within t.world).ensureOpen.2 :=
  (run_ensureOpen (getElem?_classes_archive s t.world) t.call).symm

theorem counts_ensureOpen {reader : EntryReader} (h : t.world.loader s.path = .ok reader) :
    (s.archive.within t.world).ensureOpen.2.Counts [] 0 := by
  have hopen := ensureOpen_of_loader_ok (a := s.archive.within t.world) rfl h
  rw [hopen]
  refine ⟨⟨reader, rfl⟩, rfl, fun n => ?_, rfl⟩
  rw [Std.HashMap.mem_iff_isSome_getElem?, getElem?_classes_archive s t.world]
  exact ⟨nofun, nofun⟩

theorem sealed_ensureOpen {e : Error} (h : t.world.loader s.path = .error e) :
    (s.archive.within t.world).ensureOpen.2.Sealed e.asCause := by
  have hopen := ensureOpen_of_loader_error (a := s.archive.within t.world) rfl h
  rw [hopen]
  exact ⟨rfl, rfl, getElem?_classes_archive s t.world, rfl⟩

theorem counts_afterTurns {reader : EntryReader} (h : t.world.loader s.path = .ok reader)
    (turns : List Turn) :
    (∀ x ∈ s.archive.traceTurns (t :: turns), ∃ answer, x = .ok answer) ∧
      (s.archive.afterTurns (t :: turns)).Counts ((t :: turns).flatMap (·.call.lookedUp))
        (((t :: turns).map (·.call.classReads)).sum) := by
  obtain ⟨hanswer, hcounts⟩ := (counts_ensureOpen h).run t.call
  rw [← run_first, List.nil_append, Nat.zero_add] at hcounts
  rw [← run_first] at hanswer
  obtain ⟨hanswers, hafter⟩ := hcounts.after turns
  rw [List.flatMap_cons, List.map_cons, List.sum_cons]
  exact ⟨List.forall_mem_cons.mpr ⟨hanswer, hanswers⟩, hafter⟩

theorem sealed_afterTurns {e : Error} (h : t.world.loader s.path = .error e) (turns : List Turn) :
    s.archive.traceTurns (t :: turns) =
        (t :: turns).map (fun _ => .error (.archiveOpen s.version s.path e.asCause)) ∧
      (s.archive.afterTurns (t :: turns)).Sealed e.asCause := by
  have hrun := (sealed_ensureOpen h).run t.call
  obtain ⟨htrace, hafter⟩ := (sealed_ensureOpen h).after turns
  rw [← run_first, openError_ensureOpen] at hrun
  rw [openError_ensureOpen] at htrace
  rw [traceTurns, afterTurns, hrun, List.map_cons]
  exact ⟨congrArg _ htrace, hafter⟩

end ReferenceArchive

/-! ## 6. Any run -/

/-- **The accounts of any run.** The loader is called once, by the first request, and how that ends
    decides about everything else. If it succeeds, every request is answered, a class name that is
    looked up is read once, and a class file once for each request, past what is kept. If it fails,
    every request is answered with that failure, and nothing is read or kept. -/
theorem accounts_after_turns (s : ArchiveSource) (turns : List Turn) :
    ((s.archive.afterTurns turns).opens = if turns = [] then 0 else 1) ∧
    (∀ t rest reader, turns = t :: rest → t.world.loader s.path = .ok reader →
      (∀ x ∈ s.archive.traceTurns turns, ∃ answer, x = .ok answer) ∧
      (s.archive.afterTurns turns).cachedClasses =
        (turns.flatMap (·.call.lookedUp)).toFinset.card ∧
      (s.archive.afterTurns turns).reads =
        (turns.flatMap (·.call.lookedUp)).toFinset.card + (turns.map (·.call.classReads)).sum ∧
      ∀ n ∈ turns.flatMap (·.call.lookedUp), ∀ w,
        (((s.archive.afterTurns turns).within w).lookupClass n).2 =
          (s.archive.afterTurns turns).within w) ∧
    (∀ t rest e, turns = t :: rest → t.world.loader s.path = .error e →
      s.archive.traceTurns turns =
        turns.map (fun _ => .error (.archiveOpen s.version s.path e.asCause)) ∧
      (s.archive.afterTurns turns).reads = 0 ∧
      (s.archive.afterTurns turns).cachedClasses = 0) ∧
    (∀ n classes, { s.archive.afterTurns turns with classes := classes }.classFile n =
      (((s.archive.afterTurns turns).classFile n).1,
        { ((s.archive.afterTurns turns).classFile n).2 with classes := classes })) := by
  refine ⟨?_, ?_, ?_, fun n classes => ReferenceArchive.classFile_with_classes _ classes n⟩
  · cases turns with
    | nil => rfl
    | cons t rest =>
      rw [if_neg (List.cons_ne_nil t rest)]
      cases hloader : t.world.loader s.path with
      | ok reader => exact (ReferenceArchive.counts_afterTurns hloader rest).2.opens
      | error e => exact (ReferenceArchive.sealed_afterTurns hloader rest).2.opens
  · rintro t rest reader rfl hloader
    obtain ⟨hanswers, hcounts⟩ := ReferenceArchive.counts_afterTurns hloader rest
    refine ⟨hanswers, hcounts.cachedClasses_eq, ?_, fun n hn w => ?_⟩
    · rw [← hcounts.cachedClasses_eq]
      exact hcounts.reads
    · exact (hcounts.within w).lookupClass_snd hn
  · rintro t rest e rfl hloader
    obtain ⟨htrace, hsealed⟩ := ReferenceArchive.sealed_afterTurns hloader rest
    exact ⟨htrace, hsealed.reads, hsealed.cachedClasses_eq⟩

/-- A world in which archives open and hold nothing. -/
def World.bare : World := ⟨fun _ => .ok fun _ => .ok none, fun _ => .ok none⟩

/-- A world in which no archive opens, and nothing that is open can be read. -/
def World.lost : World := ⟨fun _ => .error .empty, fun _ => .error .empty⟩

/-- Requests of which only the first is met in a world that opens archives. -/
def openedThenLost : List Turn :=
  [⟨.bare, .lookup "a.B"⟩, ⟨.lost, .classFile "a.B"⟩, ⟨.lost, .lookup "a.B"⟩,
    ⟨.lost, .lookup "c.D"⟩, ⟨.lost, .opening⟩]

/-- Requests of which only the first is met in a world that opens no archive. -/
def lostThenOpened : List Turn := [⟨.lost, .opening⟩, ⟨.bare, .lookup "a.B"⟩]

/-- An archive that was opened is not lost any more, and one that was lost is not opened any
    more. -/
theorem accounts_opened_and_lost :
    ((ArchiveSource.bare.archive.afterTurns openedThenLost).opens = 1 ∧
      (ArchiveSource.bare.archive.afterTurns openedThenLost).cachedClasses = 2 ∧
      (ArchiveSource.bare.archive.afterTurns openedThenLost).reads = 3) ∧
    ArchiveSource.bare.archive.traceTurns lostThenOpened =
      List.replicate 2 (.error (.archiveOpen 21 "21.jar" Error.empty.asCause)) := by
  obtain ⟨hopens, hopened, -, -⟩ := accounts_after_turns .bare openedThenLost
  obtain ⟨-, -, hlost, -⟩ := accounts_after_turns .bare lostThenOpened
  obtain ⟨-, hcached, hreads, -⟩ := hopened _ _ _ rfl rfl
  exact ⟨⟨hopens, hcached, hreads⟩, (hlost _ _ _ rfl rfl).1⟩

end SdkConformance
