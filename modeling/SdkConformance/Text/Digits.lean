/-!
# Numbers in text

* `hexUpper`: hexadecimal with capital digits, filled with zeros to a least width;
* `hexLower`: hexadecimal with small digits and no filling;
* `decimal?`: the value of a non-empty run of ASCII digits.
-/

namespace SdkConformance.Digits

/-- The hexadecimal digits of `n`, small letters, no leading zeros. -/
def hexLower (n : Nat) : String := String.ofList (Nat.toDigits 16 n)

/-- The hexadecimal digits of `n` in capitals, at least `width` of them. -/
def hexUpper (width n : Nat) : String :=
  let ds := (Nat.toDigits 16 n).map Char.toUpper
  String.ofList (List.replicate (width - ds.length) '0' ++ ds)

/-- An ASCII digit. -/
def isDigit (c : Char) : Bool := '0' ≤ c && c ≤ '9'

/-- The value of ASCII digits, most significant first. -/
def value (cs : List Char) : Nat := cs.foldl (fun n c => n * 10 + (c.toNat - '0'.toNat)) 0

/-- The value of a text that consists of ASCII digits, at least one. -/
def decimal? (cs : List Char) : Option Nat :=
  if !cs.isEmpty && cs.all isDigit then some (value cs) else none

theorem decimal?_eq_some_iff {cs : List Char} {n : Nat} :
    decimal? cs = some n ↔ cs ≠ [] ∧ (∀ c ∈ cs, isDigit c = true) ∧ value cs = n := by
  unfold decimal?
  split <;> rename_i h <;>
    simp only [Bool.and_eq_true, Bool.not_eq_true', List.isEmpty_eq_false_iff, List.all_eq_true,
      ne_eq] at h
  · constructor
    · intro h'; exact ⟨h.1, h.2, Option.some.inj h'⟩
    · rintro ⟨_, _, rfl⟩; rfl
  · constructor
    · intro h'; cases h'
    · rintro ⟨h₁, h₂, _⟩; exact absurd ⟨h₁, h₂⟩ h

end SdkConformance.Digits
