/-!
# Ranges of SDK versions

A range has an optional lowest and an optional highest version, both included. A declaration has
two of them, its own and that of its class; `effective` is the range in which both hold.

* `contains_effective`: a version is in the effective range exactly when it is in both;
* `selects`: the same test by bounds that are always there, which never fails for a range whose
  lowest version is above its highest.
-/

namespace SdkConformance

/-- The versions from `min` to `max`; a missing bound does not restrict. -/
structure SdkRange where
  min : Option UInt32
  max : Option UInt32
  deriving DecidableEq, Repr

namespace SdkRange

/-! ## 1. Building ranges -/

/-- Every version. -/
def unbounded : SdkRange := ⟨none, none⟩

/-- One version. -/
def exactly (version : UInt32) : SdkRange := ⟨some version, some version⟩

/-- The bound that a signed number stands for; a negative one stands for none. -/
def boundOfInt (n : Int) : Option UInt32 := if n < 0 then none else some (UInt32.ofNat n.toNat)

/-- The range of two signed bounds. -/
def ofInts (min max : Int) : SdkRange := ⟨boundOfInt min, boundOfInt max⟩

/-- The higher of two lowest versions. -/
def tighterMin : Option UInt32 → Option UInt32 → Option UInt32
  | some a, some b => some (if a < b then b else a)
  | a, none => a
  | none, b => b

/-- The lower of two highest versions. -/
def tighterMax : Option UInt32 → Option UInt32 → Option UInt32
  | some a, some b => some (if b < a then b else a)
  | a, none => a
  | none, b => b

/-- The range in which both a declaration and its class hold. -/
def effective (declared ofClass : SdkRange) : SdkRange :=
  ⟨tighterMin declared.min ofClass.min, tighterMax declared.max ofClass.max⟩

/-! ## 2. Versions in a range -/

/-- Whether the version is in the range. -/
def contains (r : SdkRange) (version : UInt32) : Bool :=
  r.min.all (· ≤ version) && r.max.all (version ≤ ·)

/-- The lowest version that is not excluded. -/
def lowest (r : SdkRange) : UInt32 := r.min.getD 0

/-- The highest version that is not excluded. -/
def highest (r : SdkRange) : UInt32 := r.max.getD 0xFFFFFFFF

/-- Whether the version lies between the bounds, given or not. -/
def selects (r : SdkRange) (version : UInt32) : Bool :=
  if r.highest < r.lowest then false else r.lowest ≤ version && version ≤ r.highest

/-- The range as a text; a missing highest version is infinity. -/
def text (r : SdkRange) : String :=
  let low := match r.min with
    | some n => toString n
    | none => "0"
  let high := match r.max with
    | some n => toString n
    | none => "∞"
  s!"[{low}, {high}]"

/-! ## 3. The effective range is the intersection -/

theorem all_tighterMin (a b : Option UInt32) (v : UInt32) :
    (tighterMin a b).all (· ≤ v) = (a.all (· ≤ v) && b.all (· ≤ v)) := by
  rcases a with _ | a <;> rcases b with _ | b <;> simp [tighterMin]
  split <;> rename_i h <;> rw [Bool.eq_iff_iff] <;>
    simp only [decide_eq_true_eq, Bool.and_eq_true, UInt32.lt_iff_toNat_lt,
      UInt32.le_iff_toNat_le] at * <;> omega

theorem all_tighterMax (a b : Option UInt32) (v : UInt32) :
    (tighterMax a b).all (v ≤ ·) = (a.all (v ≤ ·) && b.all (v ≤ ·)) := by
  rcases a with _ | a <;> rcases b with _ | b <;> simp [tighterMax]
  split <;> rename_i h <;> rw [Bool.eq_iff_iff] <;>
    simp only [decide_eq_true_eq, Bool.and_eq_true, UInt32.lt_iff_toNat_lt,
      UInt32.le_iff_toNat_le] at * <;> omega

theorem contains_effective (declared ofClass : SdkRange) (v : UInt32) :
    (effective declared ofClass).contains v = (declared.contains v && ofClass.contains v) := by
  simp only [contains, effective, all_tighterMin, all_tighterMax]
  cases declared.min.all (· ≤ v) <;> cases declared.max.all (v ≤ ·) <;> simp

theorem contains_eq (r : SdkRange) (v : UInt32) :
    r.contains v = (decide (r.lowest ≤ v) && decide (v ≤ r.highest)) := by
  have h₀ : (0 : UInt32) ≤ v := by simp
  have h₁ : v ≤ (0xFFFFFFFF : UInt32) := by
    have := v.toNat_lt
    rw [UInt32.le_iff_toNat_le]
    simp; omega
  obtain ⟨_ | a, _ | b⟩ := r <;> simp [contains, lowest, highest, h₁] <;> rfl

theorem selects_eq_contains (r : SdkRange) (v : UInt32) : r.selects v = r.contains v := by
  rw [contains_eq, selects]
  by_cases h : r.highest < r.lowest
  · have : ¬ (r.lowest ≤ v ∧ v ≤ r.highest) := by
      simp only [UInt32.lt_iff_toNat_lt, UInt32.le_iff_toNat_le] at *; omega
    simp only [h, if_true, Bool.false_eq, Bool.and_eq_false_iff, decide_eq_false_iff_not]
    exact Decidable.not_and_iff_or_not.1 this
  · simp [h]

end SdkRange

end SdkConformance
