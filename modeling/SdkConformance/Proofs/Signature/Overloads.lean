import SdkConformance.Signature.Table

/-!
# Overloads in a signature table

Every method of a class is entered under two keys, and the keys of all methods share one table.
What is found there is said here by the methods alone:

* `SignatureTable.insertAll`: the table after some entries; under a key it holds the last one that
  was entered there (`getElem?_insertAll`);
* `find_ofClass`: what is found in the table of a class, by the last method with the key and the
  last one of its name and arity;
* `FindsPresent`: what is expected of a key, that a method with exactly this key is found with its
  own facts. `findsPresent_iff` says for which keys the table lives up to it.
-/

namespace SdkConformance

/-! ## 1. Entries one after the other -/

namespace SignatureTable

/-- The table after some entries. -/
def insertAll (t : SignatureTable) (es : List (MethodKey × MethodFacts)) : SignatureTable :=
  es.foldl (fun t e => t.insert e.1 e.2) t

/-- A key holds what was entered last under it, be it as the key itself or as the erased one. -/
theorem getElem?_insertAll (es : List (MethodKey × MethodFacts)) (t : SignatureTable)
    (k : MethodKey) :
    (t.insertAll es).methods[k]? =
      ((es.reverse.find? fun e => e.1.erase = k ∨ e.1 = k).map (·.2)).or t.methods[k]? := by
  induction es generalizing t with
  | nil => rfl
  | cons e es ih =>
    show ((t.insert e.1 e.2).insertAll es).methods[k]? = _
    rw [ih, getElem?_insert, List.reverse_cons, List.find?_append, List.find?_singleton]
    cases es.reverse.find? fun e => e.1.erase = k ∨ e.1 = k with
    | some x => rfl
    | none =>
      by_cases h : e.1.erase = k ∨ e.1 = k
      · rw [if_pos h, if_pos (decide_eq_true h)]; rfl
      · rw [if_neg h, if_neg (by simpa using h)]; rfl

/-- What is found after some entries: the last one under the key, else the last one of its name
    and arity. -/
theorem find_insertAll (es : List (MethodKey × MethodFacts)) (className : String) (k : MethodKey) :
    ((empty className).insertAll es).find k =
      match es.reverse.find? fun e => e.1.erase = k ∨ e.1 = k with
      | some e => .exact e.2
      | none =>
        match es.reverse.find? fun e => e.1.erase = k.erase with
        | some e => .erased e.2
        | none => .absent := by
  have herase : (fun e : MethodKey × MethodFacts => decide (e.1.erase = k.erase ∨ e.1 = k.erase)) =
      fun e => decide (e.1.erase = k.erase) := by
    funext e
    refine decide_eq_decide.mpr ⟨fun h => ?_, Or.inl⟩
    rcases h with h | h
    · exact h
    · rw [h, MethodKey.erase_erase]
  rw [find, getElem?_insertAll, getElem?_insertAll, herase, getElem?_empty, getElem?_empty,
    Option.or_none, Option.or_none]
  cases es.reverse.find? fun e => e.1.erase = k ∨ e.1 = k with
  | some e => rfl
  | none => cases es.reverse.find? fun e => e.1.erase = k.erase <;> rfl

/-- The table of a class is that of its methods' keys and facts. -/
theorem ofClass_eq_insertAll (c : ClassFile) :
    ofClass c = (empty c.name).insertAll (c.methods.map fun m => (.ofEntry m, .ofEntry m)) := by
  rw [insertAll, List.foldl_map]
  rfl

end SignatureTable

/-! ## 2. The methods of a class -/

/-- The method has exactly this name and these parameter types. -/
def MethodEntry.Has (m : MethodEntry) (k : MethodKey) : Prop :=
  m.name = k.name ∧ m.paramNames = k.params

/-- The method has this name and this number of parameters. -/
def MethodEntry.Overloads (m : MethodEntry) (k : MethodKey) : Prop :=
  m.name = k.name ∧ m.paramNames.length = k.arity

instance (m : MethodEntry) (k : MethodKey) : Decidable (m.Has k) :=
  inferInstanceAs (Decidable (_ ∧ _))

instance (m : MethodEntry) (k : MethodKey) : Decidable (m.Overloads k) :=
  inferInstanceAs (Decidable (_ ∧ _))

theorem MethodKey.ofEntry_eq_iff {m : MethodEntry} {k : MethodKey} :
    MethodKey.ofEntry m = k ↔ m.Has k := by
  cases k
  exact MethodKey.mk.injEq .. ▸ Iff.rfl

theorem MethodKey.erase_ofEntry_eq_iff {m : MethodEntry} {k : MethodKey} :
    (MethodKey.ofEntry m).erase = k.erase ↔ m.Overloads k :=
  MethodKey.erase_eq_erase_iff

theorem MethodEntry.Has.overloads {m : MethodEntry} {k : MethodKey} (h : m.Has k) :
    m.Overloads k := ⟨h.1, congrArg List.length h.2⟩

namespace ClassFile

/-- The last method, in the order of the file, with exactly this key. -/
def lastExact? (c : ClassFile) (k : MethodKey) : Option MethodEntry :=
  c.methods.reverse.find? fun m => m.Has k

/-- The last method, in the order of the file, of this name and arity. -/
def lastOverload? (c : ClassFile) (k : MethodKey) : Option MethodEntry :=
  c.methods.reverse.find? fun m => m.Overloads k

theorem of_lastExact?_eq_some {c : ClassFile} {k : MethodKey} {m : MethodEntry}
    (h : c.lastExact? k = some m) : m ∈ c.methods ∧ m.Has k := by
  unfold lastExact? at h
  exact ⟨List.mem_reverse.mp (List.mem_of_find?_eq_some h), by simpa using List.find?_some h⟩

theorem of_lastOverload?_eq_some {c : ClassFile} {k : MethodKey} {m : MethodEntry}
    (h : c.lastOverload? k = some m) : m ∈ c.methods ∧ m.Overloads k := by
  unfold lastOverload? at h
  exact ⟨List.mem_reverse.mp (List.mem_of_find?_eq_some h), by simpa using List.find?_some h⟩

theorem lastExact?_eq_none_iff {c : ClassFile} {k : MethodKey} :
    c.lastExact? k = none ↔ ∀ m ∈ c.methods, ¬ m.Has k := by
  simp [lastExact?]

theorem lastOverload?_eq_none_iff {c : ClassFile} {k : MethodKey} :
    c.lastOverload? k = none ↔ ∀ m ∈ c.methods, ¬ m.Overloads k := by
  simp [lastOverload?]

/-- Without a method of the name and arity there is none with the key. -/
theorem lastExact?_eq_none_of_lastOverload? {c : ClassFile} {k : MethodKey}
    (h : c.lastOverload? k = none) : c.lastExact? k = none :=
  lastExact?_eq_none_iff.mpr fun m hm hk => lastOverload?_eq_none_iff.mp h m hm hk.overloads

end ClassFile

/-! ## 3. What is found -/

/-- A key that is not erased is held by the methods that have it. -/
theorem MethodKey.under_iff_of_ne {m : MethodEntry} {k : MethodKey} (hk : k.erase ≠ k) :
    ((ofEntry m).erase = k ∨ ofEntry m = k) ↔ m.Has k := by
  refine ⟨fun h => ?_, fun h => Or.inr (ofEntry_eq_iff.mpr h)⟩
  rcases h with h | h
  · have hself : k.erase = k := by rw [← h, erase_erase]
    exact absurd hself hk
  · exact ofEntry_eq_iff.mp h

/-- An erased key is held by every method of its name and arity. -/
theorem MethodKey.under_iff_of_eq {m : MethodEntry} {k : MethodKey} (hk : k.erase = k) :
    ((ofEntry m).erase = k ∨ ofEntry m = k) ↔ m.Overloads k := by
  rw [← erase_ofEntry_eq_iff, hk]
  refine ⟨fun h => ?_, Or.inl⟩
  rcases h with h | h
  · exact h
  · rw [h, hk]

/-- What is found by a key in the table of a class. Under a key that is erased already there is no
    telling the methods of its name and arity apart. -/
theorem find_ofClass (c : ClassFile) (k : MethodKey) :
    (SignatureTable.ofClass c).find k =
      if k.erase = k then
        match c.lastOverload? k with
        | some m => .exact (.ofEntry m)
        | none => .absent
      else
        match c.lastExact? k, c.lastOverload? k with
        | some m, _ => .exact (.ofEntry m)
        | none, some m => .erased (.ofEntry m)
        | none, none => .absent := by
  have hover : (c.methods.reverse.find? fun m => (MethodKey.ofEntry m).erase = k.erase) =
      c.lastOverload? k := by
    simp only [ClassFile.lastOverload?, MethodKey.erase_ofEntry_eq_iff]
  rw [SignatureTable.ofClass_eq_insertAll, SignatureTable.find_insertAll, ← List.map_reverse,
    List.find?_map, List.find?_map]
  simp only [Function.comp_def, hover]
  by_cases hk : k.erase = k
  · have hunder : (c.methods.reverse.find? fun m =>
        (MethodKey.ofEntry m).erase = k ∨ MethodKey.ofEntry m = k) = c.lastOverload? k := by
      simp only [ClassFile.lastOverload?, MethodKey.under_iff_of_eq hk]
    rw [hunder, if_pos hk]
    cases c.lastOverload? k <;> rfl
  · have hunder : (c.methods.reverse.find? fun m =>
        (MethodKey.ofEntry m).erase = k ∨ MethodKey.ofEntry m = k) = c.lastExact? k := by
      simp only [ClassFile.lastExact?, MethodKey.under_iff_of_ne hk]
    rw [hunder, if_neg hk]
    cases c.lastExact? k with
    | some m => rfl
    | none => cases c.lastOverload? k <;> rfl

/-! ## 4. Methods that are present -/

/-- What is expected of a key: an exact match means that a method has this key and gives the facts
    of the last one; where no method has it, one of its name and arity is an erased match. -/
structure FindsPresent (c : ClassFile) (k : MethodKey) : Prop where
  exact_iff : (∃ f, (SignatureTable.ofClass c).find k = .exact f) ↔ ∃ m ∈ c.methods, m.Has k
  facts : ∀ m, c.lastExact? k = some m → (SignatureTable.ofClass c).find k = .exact (.ofEntry m)
  erased : (∀ m ∈ c.methods, ¬ m.Has k) → (∃ m ∈ c.methods, m.Overloads k) →
    ∃ m ∈ c.methods, m.Overloads k ∧ (SignatureTable.ofClass c).find k = .erased (.ofEntry m)

/-- A key that is not erased is found as expected. -/
theorem findsPresent_of_ne {c : ClassFile} {k : MethodKey} (hk : k.erase ≠ k) :
    FindsPresent c k := by
  have hfind := find_ofClass c k
  rw [if_neg hk] at hfind
  refine ⟨⟨?_, ?_⟩, ?_, ?_⟩
  · intro hx
    obtain ⟨f, hf⟩ := hx
    cases he : c.lastExact? k with
    | some m => exact ⟨m, ClassFile.of_lastExact?_eq_some he⟩
    | none =>
      rw [hfind, he] at hf
      cases ho : c.lastOverload? k <;> rw [ho] at hf <;> cases hf
  · intro hx
    obtain ⟨m, hm, hmk⟩ := hx
    cases he : c.lastExact? k with
    | some l => exact ⟨.ofEntry l, by rw [hfind, he]⟩
    | none => exact absurd hmk (ClassFile.lastExact?_eq_none_iff.mp he m hm)
  · intro m hm
    rw [hfind, hm]
  · rintro hnone ⟨m, hm, hmk⟩
    have he := ClassFile.lastExact?_eq_none_iff.mpr hnone
    cases ho : c.lastOverload? k with
    | some l =>
      obtain ⟨hl, hlk⟩ := ClassFile.of_lastOverload?_eq_some ho
      exact ⟨l, hl, hlk, by rw [hfind, he, ho]⟩
    | none => exact absurd hmk (ClassFile.lastOverload?_eq_none_iff.mp ho m hm)

/-- An erased key is found as expected exactly when the last method of its name and arity has the
    facts of the last one with the key itself. -/
theorem findsPresent_iff_of_eq {c : ClassFile} {k : MethodKey} (hk : k.erase = k) :
    FindsPresent c k ↔
      (c.lastExact? k).map MethodFacts.ofEntry = (c.lastOverload? k).map MethodFacts.ofEntry := by
  have hfind := find_ofClass c k
  rw [if_pos hk] at hfind
  cases ho : c.lastOverload? k with
  | none =>
    -- no method of this name and arity: nothing is found and nothing is expected
    have he := ClassFile.lastExact?_eq_none_of_lastOverload? ho
    rw [ho] at hfind
    refine ⟨fun _ => by rw [he, Option.map_none], fun _ => ⟨⟨?_, ?_⟩, ?_, ?_⟩⟩
    · intro hx
      obtain ⟨f, hf⟩ := hx
      rw [hfind] at hf
      cases hf
    · intro hx
      obtain ⟨m, hm, hmk⟩ := hx
      exact absurd hmk (ClassFile.lastExact?_eq_none_iff.mp he m hm)
    · intro m hm
      rw [he] at hm
      cases hm
    · rintro - ⟨m, hm, hmk⟩
      exact absurd hmk (ClassFile.lastOverload?_eq_none_iff.mp ho m hm)
  | some l =>
    -- the last method of the name and arity is found as an exact match, whatever it is
    rw [ho] at hfind
    constructor
    · intro h
      obtain ⟨m, hm, hmk⟩ := h.exact_iff.mp ⟨_, hfind⟩
      cases he : c.lastExact? k with
      | none => exact absurd hmk (ClassFile.lastExact?_eq_none_iff.mp he m hm)
      | some e =>
        have hboth := (h.facts e he).symm.trans hfind
        rw [Option.map_some, Option.map_some, MethodMatch.exact.inj hboth]
    · intro h
      cases he : c.lastExact? k with
      | none => rw [he] at h; cases h
      | some e =>
        rw [he] at h
        obtain ⟨hmem, hek⟩ := ClassFile.of_lastExact?_eq_some he
        refine ⟨⟨fun _ => ⟨e, hmem, hek⟩, fun _ => ⟨_, hfind⟩⟩, fun m hm => ?_, fun hnone => ?_⟩
        · rw [he] at hm
          cases hm
          rw [hfind, Option.some.inj h]
        · exact absurd hek (hnone e hmem)

/-- **What is found, and when it is what is expected**: always, unless the parameters of the key
    are all the erased type. Such a key needs that the last method of its name and arity agrees
    with the last method that has it. -/
theorem find_ofClass_and_findsPresent_iff (c : ClassFile) (k : MethodKey) :
    ((SignatureTable.ofClass c).find k =
      if k.erase = k then
        match c.lastOverload? k with
        | some m => .exact (.ofEntry m)
        | none => .absent
      else
        match c.lastExact? k, c.lastOverload? k with
        | some m, _ => .exact (.ofEntry m)
        | none, some m => .erased (.ofEntry m)
        | none, none => .absent) ∧
    (FindsPresent c k ↔ (k.erase = k →
      (c.lastExact? k).map MethodFacts.ofEntry =
        (c.lastOverload? k).map MethodFacts.ofEntry)) := by
  refine ⟨find_ofClass c k, ?_⟩
  by_cases hk : k.erase = k
  · rw [findsPresent_iff_of_eq hk]
    exact ⟨fun h _ => h, fun h => h hk⟩
  · exact ⟨fun _ h => absurd h hk, fun _ => findsPresent_of_ne hk⟩

/-- A class `a/B` with the methods `void set(Object)` and, after it, `static boolean set(int)`. -/
def twoSetters : Bytes :=
  [0xCA, 0xFE, 0xBA, 0xBE, 0x00, 0x00, 0x00, 0x34, 0x00, 0x06,
   0x01, 0x00, 0x03, 0x61, 0x2F, 0x42,
   0x07, 0x00, 0x01,
   0x01, 0x00, 0x03, 0x73, 0x65, 0x74,
   0x01, 0x00, 0x15, 0x28, 0x4C, 0x6A, 0x61, 0x76, 0x61, 0x2F, 0x6C, 0x61, 0x6E, 0x67, 0x2F,
   0x4F, 0x62, 0x6A, 0x65, 0x63, 0x74, 0x3B, 0x29, 0x56,
   0x01, 0x00, 0x04, 0x28, 0x49, 0x29, 0x5A,
   0x00, 0x01, 0x00, 0x02, 0x00, 0x00, 0x00, 0x00, 0x00, 0x00, 0x00, 0x02,
   0x00, 0x01, 0x00, 0x03, 0x00, 0x04, 0x00, 0x00,
   0x00, 0x09, 0x00, 0x03, 0x00, 0x05, 0x00, 0x00]

/-- The class that `twoSetters` holds. -/
def twoSettersClass : ClassFile :=
  ⟨0, 52, ⟨1⟩, "a.B", none,
   [⟨"set", "(Ljava/lang/Object;)V", ⟨1⟩, ⟨[.single (.object "java/lang/Object")], .void⟩⟩,
    ⟨"set", "(I)Z", ⟨9⟩, ⟨[.single (.primitive .int)], .value (.single (.primitive .boolean))⟩⟩]⟩

/-- The method that is present with exactly the key is found with the facts of the other one. -/
theorem not_findsPresent_twoSetters :
    (ClassFile.parse twoSetters).toOption = some twoSettersClass ∧
    (twoSettersClass.lastExact? ⟨"set", ["java.lang.Object"]⟩).map MethodFacts.ofEntry =
      some ⟨false, "void"⟩ ∧
    (SignatureTable.ofClass twoSettersClass).find ⟨"set", ["java.lang.Object"]⟩ =
      .exact ⟨true, "boolean"⟩ ∧
    ¬ FindsPresent twoSettersClass ⟨"set", ["java.lang.Object"]⟩ := by
  have hfind : (SignatureTable.ofClass twoSettersClass).find ⟨"set", ["java.lang.Object"]⟩ =
      .exact ⟨true, "boolean"⟩ := by
    rw [find_ofClass]
    decide +kernel
  refine ⟨by decide +kernel, by decide +kernel, hfind, fun h => ?_⟩
  rw [findsPresent_iff_of_eq (by decide)] at h
  revert h
  decide +kernel

end SdkConformance
