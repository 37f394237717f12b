/-!
# The order of texts

* `lexicographic`: lists compared element by element, where a list comes before those it starts;
* `textOrder`: texts compared by the numbers of their characters, which is the order of their
  UTF-8 octets.
-/

namespace SdkConformance

/-- Lists in the order of their first elements that differ; a shorter list comes first. -/
def lexicographic {α : Type} (order : α → α → Ordering) : List α → List α → Ordering
  | [], [] => .eq
  | [], _ :: _ => .lt
  | _ :: _, [] => .gt
  | a :: as, b :: bs => (order a b).then (lexicographic order as bs)

/-- Characters in the order of their numbers. -/
def charOrder (a b : Char) : Ordering :=
  if a.toNat < b.toNat then .lt else if b.toNat < a.toNat then .gt else .eq

/-- Texts in the order of their characters. -/
def textOrder (s t : String) : Ordering := lexicographic charOrder s.toList t.toList

end SdkConformance
