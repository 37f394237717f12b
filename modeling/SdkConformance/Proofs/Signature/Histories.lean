import Mathlib.Data.Finset.Card
import SdkConformance.Proofs.Signature.Overloads

/-!
# Histories of a signature table

A signature table is the outcome of its history, the methods that were entered one after the other.
Each of them overwrites up to two keys, so what a look-up finds is decided by the last ones:

* `LastAt`: the place of the last entry with such a key; `lastAt_concat_of_pos` and
  `lastAt_concat_of_neg` say what one more entry changes;
* `find_insertAll_eq_exact_iff`, `find_insertAll_eq_erased_iff`, `find_insertAll_eq_absent_iff`:
  the three outcomes of a look-up by the history;
* `size_insertAll`: the number of keys, which the order of the history does not matter for.
-/

namespace SdkConformance

/-! ## 1. The last of some entries -/

/-- Of the entries with such a key the last one stands at this place, and has these facts. -/
structure LastAt (es : List (MethodKey × MethodFacts)) (p : MethodKey → Prop) (place : Nat)
    (facts : MethodFacts) : Prop where
  entry : ∃ key, p key ∧ es[place]? = some (key, facts)
  last : ∀ i e, es[i]? = some e → p e.1 → i ≤ place

section Last

variable {es : List (MethodKey × MethodFacts)} {p : MethodKey → Prop} {place : Nat}
  {facts : MethodFacts} {e : MethodKey × MethodFacts}

/-- One more entry with such a key is the last one. -/
theorem lastAt_concat_of_pos (h : p e.1) :
    LastAt (es ++ [e]) p place facts ↔ place = es.length ∧ facts = e.2 := by
  have hnew : (es ++ [e])[es.length]? = some e := List.getElem?_concat_length
  constructor
  · intro hlast
    obtain ⟨key, -, hentry⟩ := hlast.entry
    have hlt := (List.getElem?_eq_some_iff.mp hentry).1
    have hle := hlast.last es.length e hnew h
    rw [List.length_append, List.length_singleton] at hlt
    obtain rfl : place = es.length := by omega
    rw [hnew] at hentry
    cases hentry
    exact ⟨rfl, rfl⟩
  · rintro ⟨rfl, rfl⟩
    refine ⟨⟨e.1, h, hnew⟩, fun i e' hi _ => ?_⟩
    have hlt := (List.getElem?_eq_some_iff.mp hi).1
    rw [List.length_append, List.length_singleton] at hlt
    exact Nat.le_of_lt_succ hlt

/-- One more entry with another key leaves the last one where it was. -/
theorem lastAt_concat_of_neg (h : ¬ p e.1) :
    LastAt (es ++ [e]) p place facts ↔ LastAt es p place facts := by
  -- the entries with such a key are the same, at the same places
  have hsame : ∀ (i : Nat) (e' : MethodKey × MethodFacts), p e'.1 →
      ((es ++ [e])[i]? = some e' ↔ es[i]? = some e') := by
    intro i e' he'
    rcases Nat.lt_or_ge i es.length with hlt | hge
    · rw [List.getElem?_append_left hlt]
    · rw [List.getElem?_append_right hge, List.getElem?_eq_none hge]
      refine ⟨fun hi => ?_, nofun⟩
      rw [List.mem_singleton.mp (List.mem_of_getElem? hi)] at he'
      exact absurd he' h
  constructor
  · intro hlast
    obtain ⟨key, hkey, hentry⟩ := hlast.entry
    exact ⟨⟨key, hkey, (hsame _ _ hkey).mp hentry⟩,
      fun i e' hi he' => hlast.last i e' ((hsame i e' he').mpr hi) he'⟩
  · intro hlast
    obtain ⟨key, hkey, hentry⟩ := hlast.entry
    exact ⟨⟨key, hkey, (hsame _ _ hkey).mpr hentry⟩,
      fun i e' hi he' => hlast.last i e' ((hsame i e' he').mp hi) he'⟩

/-- The last entry with such a key is found from the end. -/
theorem exists_lastAt_iff [DecidablePred p] :
    (∃ place, LastAt es p place facts) ↔
      (es.reverse.find? fun e => p e.1).map (·.2) = some facts := by
  induction es using List.reverseRecOn with
  | nil =>
    refine ⟨fun hx => ?_, nofun⟩
    obtain ⟨_, ⟨_, _, ⟨⟩⟩, _⟩ := hx
  | append_singleton es e ih =>
    rw [List.reverse_append, List.reverse_singleton, List.singleton_append]
    by_cases h : p e.1
    · rw [List.find?_cons_of_pos (by simpa using h), Option.map_some, Option.some.injEq]
      simp only [lastAt_concat_of_pos h]
      exact ⟨fun ⟨_, _, hfacts⟩ => hfacts.symm, fun hfacts => ⟨_, rfl, hfacts.symm⟩⟩
    · rw [List.find?_cons_of_neg (by simpa using h), ← ih]
      simp only [lastAt_concat_of_neg h]

end Last

/-! ## 2. What a history finds -/

namespace SignatureTable

variable {es : List (MethodKey × MethodFacts)} {className : String} {k : MethodKey}
  {facts : MethodFacts}

/-- An exact match has the facts of the last method that was entered under the key, be it as its
    erased key or as its own one. -/
theorem find_insertAll_eq_exact_iff :
    ((empty className).insertAll es).find k = .exact facts ↔
      ∃ place, LastAt es (fun l => l.erase = k ∨ l = k) place facts := by
  rw [exists_lastAt_iff, find_insertAll]
  cases es.reverse.find? fun e => e.1.erase = k ∨ e.1 = k with
  | some e => rw [MethodMatch.exact.injEq, Option.map_some, Option.some.injEq]
  | none => cases es.reverse.find? fun e => e.1.erase = k.erase <;> exact ⟨nofun, nofun⟩

/-- Nothing was entered under the key if no entry is found from the end. -/
theorem find?_entered_eq_none_iff :
    (es.reverse.find? fun e => e.1.erase = k ∨ e.1 = k) = none ↔
      ∀ e ∈ es, e.1.erase ≠ k ∧ e.1 ≠ k := by
  simp

/-- An erased match has the facts of the last method of the name and arity, where nothing was
    entered under the key. -/
theorem find_insertAll_eq_erased_iff :
    ((empty className).insertAll es).find k = .erased facts ↔
      (∀ e ∈ es, e.1.erase ≠ k ∧ e.1 ≠ k) ∧
        ∃ place, LastAt es (fun l => l.name = k.name ∧ l.arity = k.arity) place facts := by
  simp only [← MethodKey.erase_eq_erase_iff]
  rw [exists_lastAt_iff, find_insertAll, ← find?_entered_eq_none_iff]
  cases es.reverse.find? fun e => e.1.erase = k ∨ e.1 = k with
  | some e => exact ⟨nofun, fun h => nomatch h.1⟩
  | none =>
    rw [and_iff_right rfl]
    cases es.reverse.find? fun e => e.1.erase = k.erase with
    | some e => rw [MethodMatch.erased.injEq, Option.map_some, Option.some.injEq]
    | none => exact ⟨nofun, nofun⟩

/-- Nothing is found exactly if no method of the name and arity was entered. -/
theorem find_insertAll_eq_absent_iff :
    ((empty className).insertAll es).find k = .absent ↔
      ∀ e ∈ es, ¬ (e.1.name = k.name ∧ e.1.arity = k.arity) := by
  simp only [← MethodKey.erase_eq_erase_iff]
  rw [find_insertAll]
  constructor
  · intro h e he herase
    split at h
    · cases h
    split at h
    · cases h
    · rename_i hnone
      exact (by simpa using hnone : ∀ a b, (a, b) ∈ es → a.erase ≠ k.erase) e.1 e.2 he herase
  · intro h
    have hkey : (es.reverse.find? fun e => e.1.erase = k ∨ e.1 = k) = none :=
      find?_entered_eq_none_iff.mpr fun e he =>
        ⟨fun hk => h e he (by rw [← hk, MethodKey.erase_erase]), fun hk => h e he (by rw [hk])⟩
    have hover : (es.reverse.find? fun e => e.1.erase = k.erase) = none := by
      simpa using fun a b hab => h (a, b) hab
    rw [hkey, hover]

end SignatureTable

/-! ## 3. The number of keys -/

/-- A map has as many entries as the set of its keys has elements. -/
theorem size_eq_card {α β : Type} [DecidableEq α] [Hashable α] (m : Std.HashMap α β)
    (s : Finset α) (h : ∀ a, a ∈ m ↔ a ∈ s) : m.size = s.card := by
  have hkeys : m.keys.toFinset = s := by
    ext a
    rw [List.mem_toFinset, Std.HashMap.mem_keys, h]
  rw [← hkeys, List.toFinset_card_of_nodup Std.HashMap.nodup_keys, Std.HashMap.length_keys]

/-- The keys that methods are entered under, their own ones and the erased ones. -/
def enteredKeys (es : List (MethodKey × MethodFacts)) : List MethodKey :=
  es.map (fun e => e.1) ++ es.map fun e => e.1.erase

namespace SignatureTable

variable {es : List (MethodKey × MethodFacts)} {className : String} {k : MethodKey}
  {facts : MethodFacts}

theorem mem_insertAll_iff :
    k ∈ ((empty className).insertAll es).methods ↔ k ∈ enteredKeys es := by
  rw [Std.HashMap.mem_iff_isSome_getElem?, getElem?_insertAll, getElem?_empty, Option.or_none,
    Option.isSome_map, List.find?_isSome, enteredKeys, List.mem_append, List.mem_map, List.mem_map]
  simp only [List.mem_reverse, decide_eq_true_eq]
  constructor
  · rintro ⟨e, he, hk | hk⟩
    · exact Or.inr ⟨e, he, hk⟩
    · exact Or.inl ⟨e, he, hk⟩
  · rintro (⟨e, he, hk⟩ | ⟨e, he, hk⟩)
    · exact ⟨e, he, Or.inr hk⟩
    · exact ⟨e, he, Or.inl hk⟩

/-- **There are as many keys as methods have different keys**, erased ones included. -/
theorem size_insertAll :
    ((empty className).insertAll es).size = (enteredKeys es).toFinset.card :=
  size_eq_card _ _ fun _ => mem_insertAll_iff.trans List.mem_toFinset.symm

/-- The size of a table does not tell in which order methods were entered. -/
theorem size_insertAll_of_perm {es' : List (MethodKey × MethodFacts)} (h : es.Perm es') :
    ((empty className).insertAll es).size = ((empty className).insertAll es').size := by
  rw [size_insertAll, size_insertAll]
  exact congrArg Finset.card (List.toFinset_eq_of_perm _ _ ((h.map _).append (h.map _)))

end SignatureTable

/-- **What a history of entries finds**: the last method that was entered under the key, else the
    last one of its name and arity, else nothing, which is so exactly if there was none of them. The
    size counts the different keys. -/
theorem find_insertAll_iff_and_size (es : List (MethodKey × MethodFacts)) (className : String)
    (k : MethodKey) :
    (∀ facts, ((SignatureTable.empty className).insertAll es).find k = .exact facts ↔
      ∃ place, LastAt es (fun l => l.erase = k ∨ l = k) place facts) ∧
    (∀ facts, ((SignatureTable.empty className).insertAll es).find k = .erased facts ↔
      (∀ e ∈ es, e.1.erase ≠ k ∧ e.1 ≠ k) ∧
        ∃ place, LastAt es (fun l => l.name = k.name ∧ l.arity = k.arity) place facts) ∧
    (((SignatureTable.empty className).insertAll es).find k = .absent ↔
      ∀ e ∈ es, ¬ (e.1.name = k.name ∧ e.1.arity = k.arity)) ∧
    ((SignatureTable.empty className).insertAll es).size =
      (enteredKeys es).toFinset.card ∧
    ∀ es', es.Perm es' → ((SignatureTable.empty className).insertAll es).size =
      ((SignatureTable.empty className).insertAll es').size :=
  ⟨fun _ => SignatureTable.find_insertAll_eq_exact_iff,
    fun _ => SignatureTable.find_insertAll_eq_erased_iff,
    SignatureTable.find_insertAll_eq_absent_iff, SignatureTable.size_insertAll,
    fun _ h => SignatureTable.size_insertAll_of_perm h⟩

/-- The methods `static boolean set(int)` and `void set(Object)`. -/
def overloadedSetters : List (MethodKey × MethodFacts) :=
  [(⟨"set", ["int"]⟩, ⟨true, "boolean"⟩), (⟨"set", ["java.lang.Object"]⟩, ⟨false, "void"⟩)]

/-- The later setter is found under the erased key, in either order, and also by a key that none of
    them has; the number of keys is the same in both orders. -/
theorem find_overloadedSetters :
    ((SignatureTable.empty "a.B").insertAll overloadedSetters).find
      ⟨"set", ["java.lang.Object"]⟩ = .exact ⟨false, "void"⟩ ∧
    ((SignatureTable.empty "a.B").insertAll overloadedSetters.reverse).find
      ⟨"set", ["java.lang.Object"]⟩ = .exact ⟨true, "boolean"⟩ ∧
    ((SignatureTable.empty "a.B").insertAll overloadedSetters).find
      ⟨"set", ["long"]⟩ = .erased ⟨false, "void"⟩ ∧
    ((SignatureTable.empty "a.B").insertAll overloadedSetters).find ⟨"set", []⟩ = .absent ∧
    ((SignatureTable.empty "a.B").insertAll overloadedSetters).size = 2 ∧
    ((SignatureTable.empty "a.B").insertAll overloadedSetters).size =
      ((SignatureTable.empty "a.B").insertAll overloadedSetters.reverse).size := by
  have hlast : ∀ es : List (MethodKey × MethodFacts), es.length = 2 →
      ∀ (i : Nat) e, es[i]? = some e → i ≤ 1 := by
    intro es hlen i e hi
    have hlt := (List.getElem?_eq_some_iff.mp hi).1
    omega
  refine ⟨?_, ?_, ?_, ?_, ?_, ?_⟩
  · exact ((find_insertAll_iff_and_size _ _ _).1 _).mpr
      ⟨1, ⟨_, by decide, rfl⟩, fun i e hi _ => hlast overloadedSetters rfl i e hi⟩
  · exact ((find_insertAll_iff_and_size _ _ _).1 _).mpr
      ⟨1, ⟨_, by decide, rfl⟩, fun i e hi _ => hlast _ rfl i e hi⟩
  · exact ((find_insertAll_iff_and_size _ _ _).2.1 _).mpr
      ⟨by decide, 1, ⟨_, by decide, rfl⟩, fun i e hi _ => hlast overloadedSetters rfl i e hi⟩
  · exact (find_insertAll_iff_and_size _ _ _).2.2.1.mpr (by decide)
  · exact (find_insertAll_iff_and_size _ _ ⟨"set", []⟩).2.2.2.1.trans (by decide)
  · exact (find_insertAll_iff_and_size _ _ ⟨"set", []⟩).2.2.2.2 _ (List.reverse_perm _).symm

end SdkConformance
