import Mathlib.Data.List.Forall2
import SdkConformance.Proofs.Sdk.PropertyLines
import SdkConformance.Proofs.Sdk.RegistryVisits

/-!
# The registry of keys and paths

A registry is built of keys and paths in two passes: every key is read before any version is
entered. So a key that is no version is always reported, and a version that comes again only if
there is no such key.

* `KeyOf`, `Versions`: the versions that keys stand for, whatever white space and zeros they have;
* `VersionRegistry.FirstInvalid`, `FirstRepeated`: the two ways in which a list is at fault;
* `add_eq_error_iff`, `foldlM_add_eq_error_iff`: what one archive is refused for, and the first one
  of many;
* `ofPairs_of_keys`: the registry of any keys and paths, or the error, from the keys alone.
-/

namespace SdkConformance

/-! ## 1. Keys -/

/-- A key of a version is its decimal number, with any white space around it. -/
def KeyOf (key : String) (v : UInt32) : Prop :=
  ∃ before digits after, key.toList = before ++ digits ++ after ∧
    (∀ c ∈ before, isWhiteSpace c = true) ∧ (∀ c ∈ after, isWhiteSpace c = true) ∧
    Denotes digits v

/-- A digit is no white space. -/
theorem not_isWhiteSpace_of_digit {c : Char} (h : '0' ≤ c ∧ c ≤ '9') :
    ¬ isWhiteSpace c = true := by
  have hlow : 48 ≤ c.toNat := h.1
  have hhigh : c.toNat ≤ 57 := h.2
  simp only [isWhiteSpace, Bool.or_eq_true, Bool.and_eq_true, decide_eq_true_eq, beq_iff_eq]
  omega

/-- Trimming leaves the digits of a key. -/
theorem trimChars_of_digits {before digits after : List Char}
    (hbefore : ∀ c ∈ before, isWhiteSpace c = true) (hafter : ∀ c ∈ after, isWhiteSpace c = true)
    (hdigits : ∀ c ∈ digits, '0' ≤ c ∧ c ≤ '9') :
    trimChars (before ++ digits ++ after) = digits := by
  refine trimChars_of_ends hbefore hafter (fun c hc => ?_) fun c hc => ?_
  · exact not_isWhiteSpace_of_digit (hdigits c (List.mem_of_mem_head? hc))
  · exact not_isWhiteSpace_of_digit (hdigits c (List.mem_of_getLast? hc))

theorem keyOf_iff {key : String} {v : UInt32} :
    KeyOf key v ↔ Denotes (trimChars key.toList) v := by
  constructor
  · intro h
    obtain ⟨before, digits, after, hkey, hbefore, hafter, hdenotes⟩ := h
    rw [hkey, trimChars_of_digits hbefore hafter hdenotes.2.1]
    exact hdenotes
  · intro h
    obtain ⟨before, after, hkey, hbefore, hafter⟩ := exists_around_trimChars key.toList
    exact ⟨before, _, after, hkey, hbefore, hafter, h⟩

theorem versionOfKey?_eq_some_iff_keyOf {key : String} {v : UInt32} :
    versionOfKey? key = some v ↔ KeyOf key v := by
  rw [versionOfKey?_eq_some_iff, keyOf_iff]

/-- The versions of the keys of some pairs, in their order. -/
def Versions (pairs : List (String × String)) (vs : List UInt32) : Prop :=
  List.Forall₂ (fun p v => KeyOf p.1 v) pairs vs

/-- The version of a key, and zero for one that is none. -/
def versionOf (p : String × String) : UInt32 := (versionOfKey? p.1).getD 0

theorem versionOf_eq {p : String × String} {v : UInt32} (h : KeyOf p.1 v) : versionOf p = v := by
  rw [versionOf, versionOfKey?_eq_some_iff_keyOf.mpr h, Option.getD_some]

theorem keyOf_versionOf {p : String × String} (h : ∃ v, KeyOf p.1 v) : KeyOf p.1 (versionOf p) := by
  obtain ⟨v, hv⟩ := h
  rw [versionOf_eq hv]
  exact hv

/-- Pairs have versions exactly if each of them has one. -/
theorem versions_iff {pairs : List (String × String)} {vs : List UInt32} :
    Versions pairs vs ↔ (∀ p ∈ pairs, ∃ v, KeyOf p.1 v) ∧ vs = pairs.map versionOf := by
  constructor
  · intro h
    induction h with
    | nil => exact ⟨nofun, rfl⟩
    | @cons p v _ _ hv _ ih =>
      refine ⟨List.forall_mem_cons.mpr ⟨⟨v, hv⟩, ih.1⟩, ?_⟩
      rw [List.map_cons, versionOf_eq hv, ← ih.2]
  · intro h
    obtain ⟨hall, rfl⟩ := h
    refine List.forall₂_map_right_iff.mpr (List.forall₂_same.mpr fun p hp => ?_)
    exact keyOf_versionOf (hall p hp)

namespace VersionEntry

theorem parse_of_keyOf {key path : String} {v : UInt32} (h : KeyOf key v) :
    parse key path = .ok ⟨v, path⟩ := by
  rw [parse, versionOfKey?_eq_some_iff_keyOf.mpr h]

theorem parse_of_not_keyOf {key path : String} (h : ∀ v, ¬ KeyOf key v) :
    parse key path = .error (.invalidVersionNumber key) := by
  have hnone : versionOfKey? key = none :=
    Option.eq_none_iff_forall_ne_some.mpr fun v hv => h v (versionOfKey?_eq_some_iff_keyOf.mp hv)
  rw [parse, hnone]

theorem exists_parse_iff {key path : String} :
    (∃ e, parse key path = .ok e) ↔ ∃ v, KeyOf key v := by
  constructor
  · intro h
    obtain ⟨e, he⟩ := h
    by_contra hnone
    rw [parse_of_not_keyOf fun v hv => hnone ⟨v, hv⟩] at he
    cases he
  · intro h
    obtain ⟨v, hv⟩ := h
    exact ⟨_, parse_of_keyOf hv⟩

end VersionEntry

namespace VersionRegistry

/-! ## 2. The first archive that is refused -/

/-- An archive is refused exactly if its version is there. -/
theorem add_eq_error_iff {r : VersionRegistry} {a : ReferenceArchive} {x : Error} :
    r.add a = .error x ↔ x = .duplicateVersion a.version ∧ a.version ∈ r.versions := by
  have hexists := exists_add_iff (r := r) (a := a)
  by_cases hmem : a.version ∈ r.versions
  · rw [and_iff_left hmem]
    have hnone : insertArchive? a r.archives = none := by
      refine Option.eq_none_iff_forall_ne_some.mpr fun as has => ?_
      exact (exists_insertArchive?_iff r.ascending).mp ⟨as, has⟩ hmem
    have hadd : r.add a = .error (.duplicateVersion a.version) := by
      unfold add
      split
      · rename_i as has
        cases hnone.symm.trans has
      · rfl
    rw [hadd, Except.error.injEq]
    exact eq_comm
  · obtain ⟨r', hr'⟩ := hexists.mpr hmem
    rw [hr']
    exact ⟨nofun, fun h => absurd h.2 hmem⟩

/-- Adding archives fails with the first one whose version is there by then. -/
theorem foldlM_add_eq_error_iff {as : List ReferenceArchive} {r : VersionRegistry} {x : Error} :
    as.foldlM add r = .error x ↔ ∃ before a after r', as = before ++ a :: after ∧
      before.foldlM add r = .ok r' ∧ x = .duplicateVersion a.version ∧ a.version ∈ r'.versions := by
  induction as generalizing r with
  | nil =>
    refine ⟨nofun, fun h => ?_⟩
    obtain ⟨before, _, _, _, has, _⟩ := h
    cases before <;> cases has
  | cons a as ih =>
    rw [List.foldlM_cons]
    cases hadd : r.add a with
    | error y =>
      have hy := add_eq_error_iff.mp hadd
      constructor
      · intro h
        cases h
        exact ⟨[], a, as, r, rfl, rfl, hy⟩
      · intro h
        obtain ⟨before, b, after, r', has, hbefore, hx⟩ := h
        cases before with
        | nil =>
          cases has
          cases hbefore
          rw [hx.1, hy.1]
          rfl
        | cons b' before =>
          cases has
          rw [List.foldlM_cons, hadd] at hbefore
          cases hbefore
    | ok s =>
      refine ih.trans ?_
      constructor
      · intro h
        obtain ⟨before, b, after, r', rfl, hbefore, hx⟩ := h
        refine ⟨a :: before, b, after, r', rfl, ?_, hx⟩
        rw [List.foldlM_cons, hadd]
        exact hbefore
      · intro h
        obtain ⟨before, b, after, r', has, hbefore, hx⟩ := h
        cases before with
        | nil =>
          cases has
          cases hbefore
          cases hadd.symm.trans (add_eq_error_iff.mpr hx)
        | cons b' before =>
          cases has
          rw [List.foldlM_cons, hadd] at hbefore
          exact ⟨before, b, after, r', rfl, hbefore, hx⟩

/-- **A registry is refused for the first version that occurred before.** -/
theorem ofArchives_eq_error_iff {as : List ReferenceArchive} {x : Error} :
    ofArchives as = .error x ↔ ∃ before a after, as = before ++ a :: after ∧
      (before.map (·.version)).Nodup ∧ x = .duplicateVersion a.version ∧
      a.version ∈ before.map (·.version) := by
  rw [ofArchives, foldlM_add_eq_error_iff]
  refine exists_congr fun before => exists_congr fun a => exists_congr fun after => ?_
  rw [exists_and_left]
  refine and_congr_right fun _ => ?_
  have hversions : ∀ {r'}, before.foldlM add empty = .ok r' →
      (a.version ∈ r'.versions ↔ a.version ∈ before.map (·.version)) := fun h =>
    ((archives_perm_of_ofArchives h).map (·.version)).mem_iff
  constructor
  · intro h
    obtain ⟨r', hr', hx, hmem⟩ := h
    exact ⟨exists_ofArchives_iff.mp ⟨r', hr'⟩, hx, (hversions hr').mp hmem⟩
  · intro h
    obtain ⟨hnodup, hx, hmem⟩ := h
    obtain ⟨r', hr'⟩ := exists_ofArchives_iff.mpr hnodup
    exact ⟨r', hr', hx, (hversions hr').mpr hmem⟩

/-! ## 3. Two passes over the pairs -/

/-- The key is the first one that is no version. -/
def FirstInvalid (pairs : List (String × String)) (key : String) : Prop :=
  ∃ before path after, pairs = before ++ (key, path) :: after ∧ (∀ v, ¬ KeyOf key v) ∧
    ∀ p ∈ before, ∃ v, KeyOf p.1 v

/-- Every key is a version, and this is the one at the first place where the version occurred
    before. -/
def FirstRepeated (pairs : List (String × String)) (v : UInt32) : Prop :=
  (∀ p ∈ pairs, ∃ w, KeyOf p.1 w) ∧
    ∃ before p after vs, pairs = before ++ p :: after ∧ KeyOf p.1 v ∧
      Versions before vs ∧ vs.Nodup ∧ v ∈ vs

section Passes

variable {loader : Loader} {pairs : List (String × String)}

/-- The archive of a pair, which is not opened yet. -/
def archiveOf (loader : Loader) (p : String × String) : ReferenceArchive :=
  .new (versionOf p) p.2 loader

/-- The first key that is no version is the error. -/
theorem ofPairs_of_firstInvalid {key : String} (h : FirstInvalid pairs key) :
    ofPairs loader pairs = .error (.invalidVersionNumber key) := by
  obtain ⟨before, path, after, hpairs, hkey, hbefore⟩ := h
  have hread : pairs.mapM (fun p => VersionEntry.parse p.1 p.2) =
      .error (.invalidVersionNumber key) :=
    mapM_eq_error_iff.mpr ⟨before, (key, path), after, hpairs,
      VersionEntry.parse_of_not_keyOf hkey,
      fun p hp => VersionEntry.exists_parse_iff.mpr (hbefore p hp)⟩
  show (pairs.mapM (fun p => VersionEntry.parse p.1 p.2) >>= ofEntries loader) = _
  rw [hread]
  rfl

/-- Where every key is a version, the archives of the pairs are entered. -/
theorem ofPairs_of_valid (h : ∀ p ∈ pairs, ∃ v, KeyOf p.1 v) :
    ofPairs loader pairs = ofArchives (pairs.map (archiveOf loader)) := by
  have hread : pairs.mapM (fun p => VersionEntry.parse p.1 p.2) =
      .ok (pairs.map fun p => ⟨versionOf p, p.2⟩) := by
    rw [mapM_eq_ok_iff, List.map_map]
    exact List.map_congr_left fun p hp => VersionEntry.parse_of_keyOf (keyOf_versionOf (h p hp))
  show (pairs.mapM (fun p => VersionEntry.parse p.1 p.2) >>= ofEntries loader) = _
  rw [hread]
  show ofArchives ((pairs.map _).map _) = _
  rw [List.map_map]
  rfl

/-- Either every key is a version, or there is a first one that is none. -/
theorem valid_or_firstInvalid (pairs : List (String × String)) :
    (∀ p ∈ pairs, ∃ v, KeyOf p.1 v) ∨ ∃ key, FirstInvalid pairs key := by
  induction pairs with
  | nil => exact Or.inl nofun
  | cons p pairs ih =>
    by_cases hp : ∃ v, KeyOf p.1 v
    · rcases ih with hvalid | ⟨key, before, path, after, rfl, hkey, hbefore⟩
      · exact Or.inl (List.forall_mem_cons.mpr ⟨hp, hvalid⟩)
      · exact Or.inr ⟨key, p :: before, path, after, rfl, hkey,
          List.forall_mem_cons.mpr ⟨hp, hbefore⟩⟩
    · exact Or.inr ⟨p.1, [], p.2, pairs, rfl, fun v hv => hp ⟨v, hv⟩, nofun⟩

theorem FirstInvalid.not_valid {key : String} (h : FirstInvalid pairs key) :
    ¬ ∀ p ∈ pairs, ∃ v, KeyOf p.1 v := by
  obtain ⟨before, path, after, rfl, hkey, -⟩ := h
  intro hvalid
  obtain ⟨v, hv⟩ := hvalid (key, path) (List.mem_append_right _ List.mem_cons_self)
  exact hkey v hv

theorem map_version_archiveOf (pairs : List (String × String)) :
    (pairs.map (archiveOf loader)).map (·.version) = pairs.map versionOf := by
  rw [List.map_map]
  rfl

/-- Where every key is a version, the first that occurred before is the error. -/
theorem ofArchives_archiveOf_eq_error_iff (h : ∀ p ∈ pairs, ∃ v, KeyOf p.1 v) {x : Error} :
    ofArchives (pairs.map (archiveOf loader)) = .error x ↔
      ∃ v, x = .duplicateVersion v ∧ FirstRepeated pairs v := by
  rw [ofArchives_eq_error_iff]
  constructor
  · intro hx
    obtain ⟨_, _, _, hpairs, hnodup, hx, hmem⟩ := hx
    obtain ⟨before, rest, rfl, rfl, hrest⟩ := List.map_eq_append_iff.mp hpairs
    obtain ⟨p, after, rfl, rfl, rfl⟩ := List.map_eq_cons_iff.mp hrest
    rw [map_version_archiveOf] at hnodup hmem
    have hp := keyOf_versionOf (h p (List.mem_append_right _ List.mem_cons_self))
    have hbefore : Versions before (before.map versionOf) :=
      versions_iff.mpr ⟨fun q hq => h q (List.mem_append_left _ hq), rfl⟩
    exact ⟨versionOf p, hx, h, before, p, after, _, rfl, hp, hbefore, hnodup, hmem⟩
  · intro hx
    obtain ⟨v, hx, -, before, p, after, vs, rfl, hp, hbefore, hnodup, hmem⟩ := hx
    obtain ⟨-, rfl⟩ := versions_iff.mp hbefore
    refine ⟨before.map (archiveOf loader), archiveOf loader p, after.map (archiveOf loader),
      by rw [List.map_append, List.map_cons], ?_, ?_, ?_⟩
    · rw [map_version_archiveOf]
      exact hnodup
    · rw [hx, ← versionOf_eq hp]
      rfl
    · rw [map_version_archiveOf]
      show versionOf p ∈ _
      rw [versionOf_eq hp]
      exact hmem

/-- **A list of pairs is refused** for the first key that is no version, or, if there is none, for
    the first version that occurred before. -/
theorem ofPairs_eq_error_iff {x : Error} : ofPairs loader pairs = .error x ↔
    (∃ key, x = .invalidVersionNumber key ∧ FirstInvalid pairs key) ∨
      ∃ v, x = .duplicateVersion v ∧ FirstRepeated pairs v := by
  rcases valid_or_firstInvalid pairs with hvalid | ⟨key, hkey⟩
  · rw [ofPairs_of_valid hvalid, ofArchives_archiveOf_eq_error_iff hvalid]
    refine (or_iff_right fun h => ?_).symm
    obtain ⟨key, -, hkey⟩ := h
    exact hkey.not_valid hvalid
  · have hrefused : ofPairs loader pairs = .error (.invalidVersionNumber key) :=
      ofPairs_of_firstInvalid hkey
    rw [hrefused]
    constructor
    · intro h
      cases h
      exact Or.inl ⟨key, rfl, hkey⟩
    · intro h
      rcases h with ⟨key', rfl, hkey'⟩ | ⟨v, -, hvalid, -⟩
      · exact hrefused.symm.trans (ofPairs_of_firstInvalid hkey')
      · exact absurd hvalid hkey.not_valid

/-- A list of pairs is accepted exactly if its keys are distinct versions. -/
theorem exists_ofPairs_iff : (∃ r, ofPairs loader pairs = .ok r) ↔
    ∃ vs, Versions pairs vs ∧ vs.Nodup := by
  rcases valid_or_firstInvalid pairs with hvalid | ⟨key, hkey⟩
  · rw [ofPairs_of_valid hvalid, exists_ofArchives_iff, map_version_archiveOf]
    constructor
    · intro h
      exact ⟨_, versions_iff.mpr ⟨hvalid, rfl⟩, h⟩
    · intro h
      obtain ⟨vs, hvs, hnodup⟩ := h
      rw [(versions_iff.mp hvs).2] at hnodup
      exact hnodup
  · rw [ofPairs_of_firstInvalid hkey]
    refine ⟨fun h => (nomatch h), fun h => ?_⟩
    obtain ⟨vs, hvs, -⟩ := h
    exact absurd (versions_iff.mp hvs).1 hkey.not_valid

/-- The archives of a registry are those of the pairs. -/
theorem archives_perm_of_ofPairs {r : VersionRegistry} (h : ofPairs loader pairs = .ok r) :
    (∀ p ∈ pairs, ∃ v, KeyOf p.1 v) ∧ r.archives.Perm (pairs.map (archiveOf loader)) := by
  obtain ⟨vs, hvs, -⟩ := exists_ofPairs_iff.mp ⟨r, h⟩
  have hvalid := (versions_iff.mp hvs).1
  rw [ofPairs_of_valid hvalid] at h
  exact ⟨hvalid, archives_perm_of_ofArchives h⟩

end Passes

end VersionRegistry

open VersionRegistry in
/-- **The registry of keys and paths** exists exactly if the keys are versions and no two of them
    are the same version. Its versions are those of the keys, in ascending order, as many as there
    are pairs, and the archive of each has the path that came with its key. Otherwise the error is
    the first key that is no version, as it was handed over; only if there is none, it is the
    version at the first place where the version occurred before. -/
theorem ofPairs_of_keys (loader : Loader) (pairs : List (String × String)) :
    ((∃ r, ofPairs loader pairs = .ok r) ↔ ∃ vs, Versions pairs vs ∧ vs.Nodup) ∧
    (∀ r, ofPairs loader pairs = .ok r →
      r.versions.Pairwise (· < ·) ∧ (∃ vs, Versions pairs vs ∧ r.versions.Perm vs) ∧
      r.size = pairs.length ∧
      (∀ p ∈ pairs, ∀ v, KeyOf p.1 v → r.get? v = some (.new v p.2 loader)) ∧
      ∀ v, (∀ p ∈ pairs, ¬ KeyOf p.1 v) → r.get? v = none) ∧
    (∀ x, ofPairs loader pairs = .error x ↔
      (∃ key, x = .invalidVersionNumber key ∧ FirstInvalid pairs key) ∨
        ∃ v, x = .duplicateVersion v ∧ FirstRepeated pairs v) := by
  refine ⟨exists_ofPairs_iff, fun r hr => ?_, fun x => ofPairs_eq_error_iff⟩
  obtain ⟨hvalid, hperm⟩ := archives_perm_of_ofPairs hr
  have hversions : r.versions.Perm (pairs.map versionOf) := by
    have := hperm.map (·.version)
    rwa [map_version_archiveOf] at this
  refine ⟨r.ascending, ⟨_, versions_iff.mpr ⟨hvalid, rfl⟩, hversions⟩, ?_, fun p hp v hv => ?_,
    fun v hnone => ?_⟩
  · rw [VersionRegistry.size, hperm.length_eq, List.length_map]
  · have hmem : archiveOf loader p ∈ r.archives :=
      hperm.mem_iff.mpr (List.mem_map_of_mem hp)
    have hget := get?_version_of_mem hmem
    rw [archiveOf, versionOf_eq hv] at hget
    exact hget
  · refine List.find?_eq_none.mpr fun a ha heq => ?_
    obtain ⟨p, hp, rfl⟩ := List.mem_map.mp (hperm.mem_iff.mp ha)
    have hv : versionOf p = v := eq_of_beq heq
    exact hnone p hp (hv ▸ keyOf_versionOf (hvalid p hp))

/-- A key with white space and a zero around its number. -/
theorem keyOf_spaced : KeyOf " 016 " 16 := versionOfKey?_eq_some_iff_keyOf.mp rfl

theorem keyOf_sixteen : KeyOf "16" 16 := versionOfKey?_eq_some_iff_keyOf.mp rfl

theorem keyOf_zeroSixteen : KeyOf "016" 16 := versionOfKey?_eq_some_iff_keyOf.mp rfl

/-- Versions are found however their keys are written; a key that is no version is reported before
    a version that comes again, and a version also when its keys differ. -/
theorem ofPairs_spaced_invalid_repeated :
    (∃ r, VersionRegistry.ofPairs (fun _ => .error .empty)
        [("21", "b.jar"), (" 016 ", "a.jar")] = .ok r ∧ r.versions = [16, 21] ∧
      r.get? 16 = some (.new 16 "a.jar" fun _ => .error .empty)) ∧
    VersionRegistry.ofPairs (fun _ => .error .empty)
        [("16", "a.jar"), ("016", "b.jar"), ("x", "c.jar")] =
      .error (.invalidVersionNumber "x") ∧
    VersionRegistry.ofPairs (fun _ => .error .empty) [("16", "a.jar"), ("016", "b.jar")] =
      .error (.duplicateVersion 16) := by
  refine ⟨?_, ?_, ?_⟩
  · obtain ⟨-, hok, -⟩ := ofPairs_of_keys (fun _ => .error .empty)
      [("21", "b.jar"), (" 016 ", "a.jar")]
    obtain ⟨-, -, -, hget, -⟩ := hok _ rfl
    exact ⟨_, rfl, rfl, hget (" 016 ", "a.jar") (by simp) 16 keyOf_spaced⟩
  · obtain ⟨-, -, herror⟩ := ofPairs_of_keys (fun _ => .error .empty)
      [("16", "a.jar"), ("016", "b.jar"), ("x", "c.jar")]
    refine (herror _).mpr (Or.inl ⟨"x", rfl, [("16", "a.jar"), ("016", "b.jar")], "c.jar", [], rfl,
      fun v hv => ?_, ?_⟩)
    · have hnone : versionOfKey? "x" = none := rfl
      rw [versionOfKey?_eq_some_iff_keyOf.mpr hv] at hnone
      cases hnone
    · rw [List.forall_mem_cons, List.forall_mem_singleton]
      exact ⟨⟨16, keyOf_sixteen⟩, ⟨16, keyOf_zeroSixteen⟩⟩
  · obtain ⟨-, -, herror⟩ := ofPairs_of_keys (fun _ => .error .empty)
      [("16", "a.jar"), ("016", "b.jar")]
    refine (herror _).mpr (Or.inr ⟨16, rfl, ?_, [("16", "a.jar")], ("016", "b.jar"), [], [16], rfl,
      keyOf_zeroSixteen, .cons keyOf_sixteen .nil, by decide, by decide⟩)
    rw [List.forall_mem_cons, List.forall_mem_singleton]
    exact ⟨⟨16, keyOf_sixteen⟩, ⟨16, keyOf_zeroSixteen⟩⟩

end SdkConformance
