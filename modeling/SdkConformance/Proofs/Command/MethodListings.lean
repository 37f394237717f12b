import SdkConformance.Command.Methods
import SdkConformance.Proofs.Declaration.ValidationVisits
import SdkConformance.Proofs.Signature.Overloads

/-!
# The listing of a class and the validation of its methods

The methods of a class are listed from its class file, which is read each time. A declaration is
validated against its signature table, which is kept. What the one shows is what the other goes by.

* `find_eq_absent_iff`, `exists_exact_of_mem`: what is found in the table of a class, by its
  methods;
* `DeclaredMethod.reportsNoClass_iff`, `DeclaredMethod.reportsNoMethod_iff`: what is reported, by
  the class and its methods;
* `ListingAgrees`: what a listing says about the diagnostics of a declaration;
* `listing_agrees_with_validation`: it says that in any two states of a registry.
-/

namespace SdkConformance

/-! ## 1. Methods that are found -/

/-- Nothing is found where no method has the name and the arity of the key. -/
theorem find_eq_absent_iff {c : ClassFile} {k : MethodKey} :
    (SignatureTable.ofClass c).find k = .absent ↔ ∀ e ∈ c.methods, ¬ e.Overloads k := by
  rw [← ClassFile.lastOverload?_eq_none_iff, find_ofClass]
  cases ho : c.lastOverload? k with
  | none =>
    rw [ClassFile.lastExact?_eq_none_of_lastOverload? ho]
    exact ⟨fun _ => rfl, fun _ => by split <;> rfl⟩
  | some l =>
    refine ⟨fun h => ?_, nofun⟩
    split at h
    · cases h
    · cases he : c.lastExact? k <;> rw [he] at h <;> cases h

/-- A method with exactly the key is an exact match. -/
theorem exists_exact_of_mem {c : ClassFile} {k : MethodKey} {e : MethodEntry}
    (he : e ∈ c.methods) (hk : e.Has k) : ∃ f, (SignatureTable.ofClass c).find k = .exact f := by
  rw [find_ofClass]
  split
  · cases ho : c.lastOverload? k with
    | some l => exact ⟨_, rfl⟩
    | none => exact absurd hk.overloads (ClassFile.lastOverload?_eq_none_iff.mp ho e he)
  · cases hl : c.lastExact? k with
    | some l => exact ⟨_, rfl⟩
    | none => exact absurd hk (ClassFile.lastExact?_eq_none_iff.mp hl e he)

/-! ## 2. What is reported -/

/-- It is reported that the class is not there. -/
def ReportsNoClass (ds : List Diagnostic) : Prop :=
  ∃ className version, .classNotFound className version ∈ ds

/-- It is reported that the method is not there. -/
def ReportsNoMethod (ds : List Diagnostic) : Prop :=
  ∃ className name version, .methodNotFound className name version ∈ ds

namespace DeclaredMethod

/-- Of a method that was found two things can differ. -/
theorem eq_of_mem_compare {m : DeclaredMethod} {f : MethodFacts} {version : UInt32} {d : Diagnostic}
    (hd : d ∈ m.compare f version) :
    d = .staticMismatch m.className m.name version m.isStatic ∨
      d = .returnTypeMismatch m.className m.name version f.returnType m.returnType := by
  rw [compare, List.mem_append, List.mem_ite_nil_right, List.mem_ite_nil_right,
    List.mem_singleton, List.mem_singleton] at hd
  exact hd.imp And.right And.right

/-- Of a method that was found nothing is reported as missing. -/
theorem not_reports_compare (m : DeclaredMethod) (f : MethodFacts) (version : UInt32) :
    ¬ ReportsNoClass (m.compare f version) ∧ ¬ ReportsNoMethod (m.compare f version) := by
  constructor
  · intro h
    obtain ⟨_, _, hd⟩ := h
    rcases eq_of_mem_compare hd with heq | heq <;> cases heq
  · intro h
    obtain ⟨_, _, _, hd⟩ := h
    rcases eq_of_mem_compare hd with heq | heq <;> cases heq

/-- The class is reported as missing exactly where there is none. -/
theorem reportsNoClass_iff (m : DeclaredMethod) (version : UInt32) (c : Option ClassFile) :
    ReportsNoClass (m.differences version c) ↔ c = none := by
  rw [← check_map_ofClass]
  cases c with
  | none => exact ⟨fun _ => rfl, fun _ => ⟨_, _, List.mem_singleton_self _⟩⟩
  | some c =>
    refine ⟨fun h => ?_, nofun⟩
    simp only [Option.map_some, check] at h
    split at h
    · obtain ⟨_, _, hd⟩ := h
      cases List.mem_singleton.mp hd
    · exact absurd h (m.not_reports_compare _ version).1

/-- The method of a class is reported as missing exactly where none has its name and as many
    parameters. -/
theorem reportsNoMethod_iff (m : DeclaredMethod) (version : UInt32) (c : ClassFile) :
    ReportsNoMethod (m.differences version (some c)) ↔
      ∀ e ∈ c.methods, ¬ (e.name = m.binaryName ∧ e.paramNames.length = m.params.length) := by
  refine Iff.trans ?_ (find_eq_absent_iff (c := c) (k := m.key))
  rw [← check_map_ofClass]
  simp only [Option.map_some, check]
  cases (SignatureTable.ofClass c).find m.key with
  | absent => exact ⟨fun _ => rfl, fun _ => ⟨_, _, _, List.mem_singleton_self _⟩⟩
  | exact f =>
    exact ⟨fun h => absurd h (m.not_reports_compare f version).2, fun h => by cases h⟩
  | erased f =>
    exact ⟨fun h => absurd h (m.not_reports_compare f version).2, fun h => by cases h⟩

end DeclaredMethod

/-! ## 3. Listing and validating -/

/-- **What the listing of a class says about a declaration**: about the diagnostics that are told of
    it against the same version, and about the signature table that they come from. -/
structure ListingAgrees (m : DeclaredMethod) (listed : Option ClassFile)
    (table : Option SignatureTable) (ds : List Diagnostic) : Prop where
  noClass_iff : listed = none ↔ ReportsNoClass ds
  noMethod_iff : ∀ c, listed = some c → (ReportsNoMethod ds ↔
    ∀ e ∈ c.methods, ¬ (e.name = m.binaryName ∧ e.paramNames.length = m.params.length))
  exact : ∀ c, listed = some c → ∀ e ∈ c.methods, e.name = m.binaryName →
    e.paramNames = m.params → (∃ t f, table = some t ∧ t.find m.key = .exact f) ∧
      ¬ ReportsNoClass ds ∧ ¬ ReportsNoMethod ds

theorem listingAgrees_differences (m : DeclaredMethod) (version : UInt32) (c : Option ClassFile) :
    ListingAgrees m c (c.map SignatureTable.ofClass) (m.differences version c) := by
  refine ⟨(m.reportsNoClass_iff version c).symm, ?_, ?_⟩
  · intro c hc
    subst hc
    exact m.reportsNoMethod_iff version c
  · intro c hc e he hname hparams
    subst hc
    obtain ⟨f, hf⟩ := exists_exact_of_mem (k := m.key) he ⟨hname, hparams⟩
    refine ⟨⟨_, f, rfl, hf⟩, fun h => ?_, fun h => ?_⟩
    · cases (m.reportsNoClass_iff version (some c)).mp h
    · exact (m.reportsNoMethod_iff version c).mp h e he ⟨hname, congrArg List.length hparams⟩

namespace ArchiveSource

variable {s : ArchiveSource}

/-- The class is what opening and reading the entry come to. -/
theorem classFrom_entryAnswer_of_ok {reader : EntryReader} (h : s.loader s.path = .ok reader)
    (n : String) : s.classFrom (s.entryAnswer n) = .ok (s.class? n) := by
  unfold class? entryAnswer
  rw [h]
  rfl

theorem classFrom_entryAnswer_of_error {e : Error} (h : s.loader s.path = .error e) (n : String) :
    s.classFrom (s.entryAnswer n) = .error (s.openError e) := by
  rw [entryAnswer, h]
  rfl

end ArchiveSource

namespace VersionRegistry

variable {r : VersionRegistry}

/-- A registry has an archive of each of its sources, in the state that its requests left it in. -/
theorem Coherent.exists_get? (hr : r.Coherent) {s : ArchiveSource} (hs : s ∈ r.sources) :
    ∃ a, r.get? s.version = some a ∧ a.Coherent ∧ a.source = s := by
  obtain ⟨a, ha, rfl⟩ := List.mem_map.mp hs
  exact ⟨a, get?_version_of_mem ha, hr a ha, rfl⟩

end VersionRegistry

/-- **The listing and the validation agree**, for every declaration and every version, in any two
    states of a registry. Where the archive can be opened, no class is listed exactly where the
    class is reported as missing; of a class that is listed, the method is reported as missing
    exactly where no method in the list has its name and as many parameters; and a method in the
    list with its name and its parameter types is an exact match in the table. Where the archive
    cannot be opened, all of them fail with the same error. -/
theorem listing_agrees_with_validation {r r' : VersionRegistry} (hr : r.Reachable)
    (hr' : r'.Reachable) (hsources : r'.sources = r.sources) {s : ArchiveSource}
    (hs : s ∈ r.sources) (m : DeclaredMethod) :
    ∃ a b, r.get? s.version = some a ∧ r'.get? s.version = some b ∧
      (∀ reader, s.loader s.path = .ok reader → ∃ listed table ds,
        (a.classFile m.className).1 = .ok listed ∧
        (b.lookupClass m.className).1 = .ok table ∧
        (r'.validateVersion m s.version).1 = .ok (some ds) ∧
        ListingAgrees m listed table ds ∧
        Command.MethodListing.find r s.version m.className =
          match listed with
          | none => .error (.noClass m.className s.version)
          | some c => .ok ⟨s.version, c⟩) ∧
      (∀ e, s.loader s.path = .error e →
        (a.classFile m.className).1 = .error (.archiveOpen s.version s.path e.asCause) ∧
        (b.lookupClass m.className).1 = .error (.archiveOpen s.version s.path e.asCause) ∧
        (r'.validateVersion m s.version).1 = .error (.archiveOpen s.version s.path e.asCause) ∧
        Command.MethodListing.find r s.version m.className =
          .error (.unreadable s.version (.archiveOpen s.version s.path e.asCause))) := by
  obtain ⟨a, ha, hcoherent, hsource⟩ := hr.coherent.exists_get? hs
  have hs' : s ∈ r'.sources := hsources ▸ hs
  obtain ⟨b, hb, hcoherent', hsource'⟩ := hr'.coherent.exists_get? hs'
  have hvalidate := hr'.coherent.validateVersion_fst m hs'
  have hclass := hcoherent.classFile_fst m.className
  have htable := hcoherent'.lookupClass_fst m.className
  rw [hsource] at hclass
  rw [hsource', ArchiveSource.tableFrom_eq_map] at htable
  refine ⟨a, b, ha, hb, fun reader hreader => ?_, fun e he => ?_⟩
  · rw [ArchiveSource.classFrom_entryAnswer_of_ok hreader] at hclass htable
    rw [ArchiveSource.failure?_of_ok hreader] at hvalidate
    refine ⟨_, _, _, hclass, htable, hvalidate, listingAgrees_differences m s.version _, ?_⟩
    rw [Command.MethodListing.find, ha]
    simp only [hclass]
    cases s.class? m.className <;> rfl
  · rw [ArchiveSource.classFrom_entryAnswer_of_error he] at hclass htable
    rw [ArchiveSource.failure?_of_error he] at hvalidate
    refine ⟨hclass, htable, hvalidate, ?_⟩
    rw [Command.MethodListing.find, ha]
    simp only [hclass]
    rfl

/-- A setter of one object is in the list and is not reported, whatever else it differs in; one of
    two is not in the list, and a class that is not there is not listed; a version that cannot be
    opened fails both ways. All of it holds after a request has failed there. -/
theorem listing_agrees_setters_and_lost :
    ∃ r : VersionRegistry, r.Reachable ∧
      (∃ ds, ((r.validate (.setter "a.B" [])).2.validateVersion
          (.setter "a.B" ["java.lang.Object"]) 30).1 = .ok (some ds) ∧
        ¬ ReportsNoClass ds ∧ ¬ ReportsNoMethod ds) ∧
      (∃ ds, ((r.validate (.setter "a.B" [])).2.validateVersion
          (.setter "a.B" ["int", "int"]) 30).1 = .ok (some ds) ∧ ReportsNoMethod ds) ∧
      (∃ ds, ((r.validate (.setter "a.B" [])).2.validateVersion (.setter "c.D" []) 30).1 =
          .ok (some ds) ∧ ReportsNoClass ds) ∧
      Command.MethodListing.find r 23 "a.B" = .error (.unreadable 23
        (.archiveOpen 23 "23.jar" (Error.file .notFound).asCause)) := by
  obtain ⟨r, hstart, hsources⟩ : ∃ r : VersionRegistry, VersionRegistry.ofArchives
      ([ArchiveSource.setters, .lost].map (·.archive)) = .ok r ∧
      r.sources = [.lost, .setters] := ⟨_, rfl, rfl⟩
  have hr := VersionRegistry.reachable_of_ofArchives_map hstart
  have hr' := hr.run (.validate (.setter "a.B" []))
  have hsame := (r.follows_run (.validate (.setter "a.B" []))).1
  have hsetters : ArchiveSource.setters ∈ r.sources := by
    rw [hsources]
    exact List.mem_cons_of_mem _ List.mem_cons_self
  have hlost : ArchiveSource.lost ∈ r.sources := by
    rw [hsources]
    exact List.mem_cons_self
  -- the class that is listed is what the octets of its entry hold
  have hagrees : ∀ m : DeclaredMethod, ∃ table ds,
      ((r.validate (.setter "a.B" [])).2.validateVersion m 30).1 = .ok (some ds) ∧
        ListingAgrees m (ArchiveSource.setters.class? m.className) table ds := by
    intro m
    obtain ⟨a, b, ha, hb, hopen, -⟩ := listing_agrees_with_validation hr hr' hsame hsetters m
    obtain ⟨listed, table, ds, hclass, -, hds, hagrees, -⟩ := hopen _ rfl
    obtain ⟨a', ha', hcoherent, hsource⟩ := hr.coherent.exists_get? hsetters
    cases ha.symm.trans ha'
    rw [hcoherent.classFile_fst, hsource, ArchiveSource.classFrom_entryAnswer_of_ok rfl] at hclass
    rw [← Except.ok.inj hclass] at hagrees
    exact ⟨table, ds, hds, hagrees⟩
  have hab : ArchiveSource.setters.class? "a.B" = some twoSettersClass := by decide +kernel
  have hcd : ArchiveSource.setters.class? "c.D" = none := by decide +kernel
  refine ⟨r, hr, ?_, ?_, ?_, ?_⟩
  · obtain ⟨table, ds, hds, hlisting⟩ := hagrees (.setter "a.B" ["java.lang.Object"])
    have hexact := hlisting.exact twoSettersClass hab _ List.mem_cons_self rfl (by decide +kernel)
    exact ⟨ds, hds, hexact.2⟩
  · obtain ⟨table, ds, hds, hlisting⟩ := hagrees (.setter "a.B" ["int", "int"])
    exact ⟨ds, hds, (hlisting.noMethod_iff twoSettersClass hab).mpr (by decide +kernel)⟩
  · obtain ⟨table, ds, hds, hlisting⟩ := hagrees (.setter "c.D" [])
    exact ⟨ds, hds, hlisting.noClass_iff.mp hcd⟩
  · obtain ⟨a, b, -, -, -, hfails⟩ := listing_agrees_with_validation hr hr' hsame hlost
      (.setter "a.B" [])
    exact (hfails _ rfl).2.2.2

end SdkConformance
