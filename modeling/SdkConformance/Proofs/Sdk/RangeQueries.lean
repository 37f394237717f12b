import SdkConformance.Sdk.Registry

/-!
# The versions of a range

A registry is asked for the archives between two versions: it seeks the lower one and walks on up to
the higher one. Such a query has no answer where the lower version is above the higher one, and a
range can say so, so the query is guarded.

* `VersionRegistry.between?`, `VersionRegistry.matching?`: the query, and the guarded query for a
  range; `matching?_eq_some_inRange` says that the guard always suffices, and what is answered;
* `SdkRange.contains_ofInts_iff`: which versions are in the range of two signed bounds;
* `inRange_effective`: the effective range of a declaration selects the versions that both of its
  ranges contain.
-/

namespace SdkConformance

/-! ## 1. Prefixes of ascending lists -/

section Prefix

variable {α : Type} {p : α → Bool}

/-- Where no element fulfils `p` behind one that does not, the first run of `p` is all of it. -/
theorem takeWhile_eq_filter {xs : List α} (h : xs.Pairwise fun x y => p y = true → p x = true) :
    xs.takeWhile p = xs.filter p := by
  induction xs with
  | nil => rfl
  | cons x xs ih =>
    obtain ⟨hx, hxs⟩ := List.pairwise_cons.mp h
    by_cases hp : p x = true
    · rw [List.takeWhile_cons_of_pos hp, List.filter_cons_of_pos hp, ih hxs]
    · have hnone : xs.filter p = [] :=
        List.filter_eq_nil_iff.mpr fun y hy hpy => hp (hx y hy hpy)
      rw [List.takeWhile_cons_of_neg hp, List.filter_cons_of_neg hp, hnone]

/-- What the first run of `p` leaves is then all that does not fulfil `p`. -/
theorem dropWhile_eq_filter {xs : List α} (h : xs.Pairwise fun x y => p y = true → p x = true) :
    xs.dropWhile p = xs.filter (!p ·) := by
  induction xs with
  | nil => rfl
  | cons x xs ih =>
    obtain ⟨hx, hxs⟩ := List.pairwise_cons.mp h
    by_cases hp : p x = true
    · rw [List.dropWhile_cons_of_pos hp, List.filter_cons_of_neg (by simpa using hp), ih hxs]
    · have hall : ∀ y ∈ x :: xs, (!p y) = true := by
        intro y hy
        rw [Bool.not_eq_true']
        rcases List.mem_cons.mp hy with rfl | hy
        · exact Bool.not_eq_true _ ▸ hp
        · exact Bool.eq_false_iff.mpr fun hpy => hp (hx y hy hpy)
      rw [List.dropWhile_cons_of_neg hp, List.filter_eq_self.mpr hall]

end Prefix

/-! ## 2. Queries -/

namespace VersionRegistry

variable (r : VersionRegistry)

/-- The archives from one version up to another one: those behind the lower versions, as far as
    they are not too high. There is no answer between inverted bounds. -/
def between? (low high : UInt32) : Option (List ReferenceArchive) :=
  if high < low then none
  else some ((r.archives.dropWhile (·.version < low)).takeWhile (·.version ≤ high))

/-- The archives of a range, by a query that is not made where its bounds are inverted. -/
def matching? (range : SdkRange) : Option (List ReferenceArchive) :=
  if range.highest < range.lowest then some [] else r.between? range.lowest range.highest

/-- The archives stand in the order of their versions. -/
theorem pairwise_archives : r.archives.Pairwise fun a b => a.version < b.version :=
  List.pairwise_map.mp r.ascending

/-- A query answers all archives between its bounds, unless these are inverted. -/
theorem between?_eq_some_filter {low high : UInt32} (h : ¬ high < low) :
    r.between? low high =
      some (r.archives.filter fun a => decide (low ≤ a.version) && decide (a.version ≤ high)) := by
  have hlow : r.archives.Pairwise fun a b =>
      decide (b.version < low) = true → decide (a.version < low) = true := by
    refine r.pairwise_archives.imp fun {a b} hab hb => ?_
    exact decide_eq_true (UInt32.lt_trans hab (of_decide_eq_true hb))
  have hhigh : (r.archives.filter fun a => !decide (a.version < low)).Pairwise fun a b =>
      decide (b.version ≤ high) = true → decide (a.version ≤ high) = true := by
    refine (r.pairwise_archives.filter _).imp fun {a b} hab hb => ?_
    exact decide_eq_true (UInt32.le_trans (UInt32.le_of_lt hab) (of_decide_eq_true hb))
  have hsame : ∀ a : ReferenceArchive,
      (decide (a.version ≤ high) && !decide (a.version < low)) =
        (decide (low ≤ a.version) && decide (a.version ≤ high)) := by
    intro a
    rw [Bool.and_comm, ← decide_not]
    exact congrArg (· && _) (decide_eq_decide.mpr UInt32.not_lt)
  rw [between?, if_neg h, dropWhile_eq_filter hlow, takeWhile_eq_filter hhigh, List.filter_filter]
  simp only [hsame]

/-- **The guarded query never fails**, and its answer is the archives of the range. -/
theorem matching?_eq_some_inRange (range : SdkRange) :
    r.matching? range = some (r.inRange range) := by
  have hsame : r.inRange range = r.archives.filter fun a =>
      decide (range.lowest ≤ a.version) && decide (a.version ≤ range.highest) := by
    rw [inRange]
    simp only [SdkRange.selects_eq_contains, SdkRange.contains_eq]
  unfold matching?
  by_cases h : range.highest < range.lowest
  · have hnone : ∀ a ∈ r.archives, ¬ range.selects a.version = true := by
      intro a _
      rw [SdkRange.selects, if_pos h]
      exact Bool.false_ne_true
    rw [if_pos h, inRange, List.filter_eq_nil_iff.mpr hnone]
  · rw [if_neg h, r.between?_eq_some_filter h, hsame]

end VersionRegistry

/-! ## 3. Ranges -/

namespace SdkRange

/-- The number of a signed bound that is not negative. -/
theorem toNat_ofNat_toInt {n : Int32} (h : ¬ n.toInt < 0) :
    ((UInt32.ofNat n.toInt.toNat).toNat : Int) = n.toInt := by
  have hlt : n.toInt < 2147483648 := n.toInt_lt
  have hsize : n.toInt.toNat < 4294967296 := by omega
  have hnat : (UInt32.ofNat n.toInt.toNat).toNat = n.toInt.toNat := UInt32.toNat_ofNat_of_lt' hsize
  omega

/-- A lowest version that is given as a signed number. -/
theorem all_boundOfInt_le (n : Int32) (v : UInt32) :
    (boundOfInt n.toInt).all (· ≤ v) = true ↔ n.toInt < 0 ∨ n.toInt ≤ v.toNat := by
  unfold boundOfInt
  by_cases hneg : n.toInt < 0
  · rw [if_pos hneg]
    exact ⟨fun _ => Or.inl hneg, fun _ => rfl⟩
  · have hn := toNat_ofNat_toInt hneg
    rw [if_neg hneg, Option.all_some, decide_eq_true_eq, UInt32.le_iff_toNat_le]
    omega

/-- A highest version that is given as a signed number. -/
theorem all_le_boundOfInt (n : Int32) (v : UInt32) :
    (boundOfInt n.toInt).all (v ≤ ·) = true ↔ n.toInt < 0 ∨ (v.toNat : Int) ≤ n.toInt := by
  unfold boundOfInt
  by_cases hneg : n.toInt < 0
  · rw [if_pos hneg]
    exact ⟨fun _ => Or.inl hneg, fun _ => rfl⟩
  · have hn := toNat_ofNat_toInt hneg
    rw [if_neg hneg, Option.all_some, decide_eq_true_eq, UInt32.le_iff_toNat_le]
    omega

/-- **A version is in the range of two signed bounds** if it respects those that are not
    negative. -/
theorem contains_ofInts_iff (low high : Int32) (v : UInt32) :
    (ofInts low.toInt high.toInt).contains v = true ↔
      (low.toInt < 0 ∨ low.toInt ≤ v.toNat) ∧ (high.toInt < 0 ∨ (v.toNat : Int) ≤ high.toInt) := by
  rw [contains, Bool.and_eq_true]
  exact and_congr (all_boundOfInt_le low v) (all_le_boundOfInt high v)

end SdkRange

/-! ## 4. Both ranges of a declaration -/

/-- **The archives of an effective range** are those whose version both ranges contain, in ascending
    order, each once. They are had by a query that never fails, whatever the bounds are, and the
    same versions are left of all when those outside the effective range are dropped. A bound that
    is given as a signed number restricts if it is not negative. -/
theorem inRange_effective (r : VersionRegistry) (declared ofClass : SdkRange) :
    r.matching? (.effective declared ofClass) = some (r.inRange (.effective declared ofClass)) ∧
    r.inRange (.effective declared ofClass) =
      r.archives.filter (fun a => declared.contains a.version && ofClass.contains a.version) ∧
    ((r.inRange (.effective declared ofClass)).map (·.version)).Pairwise (· < ·) ∧
    (∀ v, v ∈ (r.inRange (.effective declared ofClass)).map (·.version) ↔
      v ∈ r.versions ∧ declared.contains v = true ∧ ofClass.contains v = true) ∧
    (r.inRange (.effective declared ofClass)).map (·.version) =
      r.versions.filter (SdkRange.effective declared ofClass).contains ∧
    ∀ (low high : Int32) (v : UInt32), (SdkRange.ofInts low.toInt high.toInt).contains v = true ↔
      (low.toInt < 0 ∨ low.toInt ≤ v.toNat) ∧ (high.toInt < 0 ∨ (v.toNat : Int) ≤ high.toInt) := by
  have hfilter : r.inRange (.effective declared ofClass) =
      r.archives.filter fun a => (SdkRange.effective declared ofClass).contains a.version := by
    rw [VersionRegistry.inRange]
    simp only [SdkRange.selects_eq_contains]
  have hversions : (r.inRange (.effective declared ofClass)).map (·.version) =
      r.versions.filter (SdkRange.effective declared ofClass).contains := by
    rw [hfilter, VersionRegistry.versions, List.filter_map]
    rfl
  refine ⟨r.matching?_eq_some_inRange _, ?_, ?_, fun v => ?_, hversions,
    SdkRange.contains_ofInts_iff⟩
  · rw [hfilter]
    simp only [SdkRange.contains_effective]
  · rw [hversions]
    exact r.ascending.filter _
  · rw [hversions, List.mem_filter, SdkRange.contains_effective, Bool.and_eq_true]

end SdkConformance
