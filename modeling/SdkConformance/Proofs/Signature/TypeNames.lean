import SdkConformance.Proofs.ClassFile.DescriptorGrammar
import SdkConformance.Proofs.ClassFile.LayoutReading
import SdkConformance.Proofs.Sdk.ClassEntries
import SdkConformance.Proofs.Signature.Overloads

/-!
# Types by their names

Signatures are compared by the canonical names of types, which are texts. Where class names are what
the class file format allows, no two types have the same name, so nothing is lost by that.

* `LegalName`, `ReturnType.Legal`: a class name that the format allows, and types with such names;
* `ReturnType.base`, `ReturnType.depth`: what stands before the brackets, and how many pairs there
  are; `name_eq` and `eq_of_name_eq` take a name apart again;
* `Described`: the types that descriptors describe;
* `ParamText`: the part of a method descriptor between its parentheses;
* `names_and_keys_apart`: types, keys of methods and entries of tables that are told apart.
-/

namespace SdkConformance

/-! ## 1. Legal names -/

/-- The names that stand for types that are no class. -/
def typeKeywords : List String :=
  ["byte", "char", "double", "float", "int", "long", "short", "boolean", "void"]

/-- A class name that a class file may hold. -/
structure LegalName (n : String) : Prop where
  noDot : '.' ∉ n.toList
  noBracket : '[' ∉ n.toList
  notKeyword : n ∉ typeKeywords

/-- The class that the type is made of, if there is one, has a legal name. -/
def ElementType.Legal : ElementType → Prop
  | .primitive _ => True
  | .object n => LegalName n

def ValueType.Legal : ValueType → Prop
  | .single e => e.Legal
  | .array e _ => e.Legal

def ReturnType.Legal : ReturnType → Prop
  | .void => True
  | .value t => t.Legal

/-! ## 2. Names of elements -/

/-- A keyword has neither a dot nor a bracket. -/
theorem plain_of_mem_typeKeywords {s : String} (h : s ∈ typeKeywords) :
    '.' ∉ s.toList ∧ '[' ∉ s.toList := by
  revert s
  decide

theorem Primitive.name_mem_typeKeywords (p : Primitive) : p.name ∈ typeKeywords := by
  cases p <;> decide

theorem Primitive.eq_of_name_eq {p q : Primitive} (h : p.name = q.name) : p = q := by
  revert h
  cases p <;> cases q <;> decide

theorem Primitive.name_ne_void (p : Primitive) : p.name ≠ "void" := by
  cases p <;> decide

namespace LegalName

variable {n m : String}

/-- A dotted name has a dot, or it is the internal name and no keyword. -/
theorem canonical_not_mem_typeKeywords (h : LegalName n) :
    ClassName.canonical n ∉ typeKeywords := by
  intro hmem
  have hplain := (plain_of_mem_typeKeywords hmem).1
  rw [← ClassName.dotted_eq_canonical, ClassName.dotted, String.toList_ofList] at hplain
  have hslash : '/' ∉ n.toList := fun hslash =>
    hplain (List.mem_map.mpr ⟨'/', hslash, if_pos rfl⟩)
  have hsame : ∀ c ∈ n.toList, (if c = '/' then '.' else c) = c := by
    intro c hc
    refine if_neg ?_
    rintro rfl
    exact hslash hc
  refine h.notKeyword ?_
  rw [← ClassName.dotted_eq_canonical, ClassName.dotted, List.map_congr_left hsame, List.map_id',
    String.ofList_toList] at hmem
  exact hmem

theorem bracket_not_mem_canonical (h : LegalName n) :
    '[' ∉ (ClassName.canonical n).toList := by
  rw [← ClassName.dotted_eq_canonical, ClassName.dotted, String.toList_ofList, List.mem_map]
  intro hx
  obtain ⟨c, hc, hbracket⟩ := hx
  split at hbracket
  · cases hbracket
  · exact h.noBracket (hbracket ▸ hc)

/-- Without dots, the internal name can be had back. -/
theorem eq_of_canonical_eq (hn : LegalName n) (hm : LegalName m)
    (h : ClassName.canonical n = ClassName.canonical m) : n = m := by
  rw [← ClassName.dotted_eq_canonical, ← ClassName.dotted_eq_canonical] at h
  exact ClassName.eq_of_entry_dotted_eq hn.noDot hm.noDot (congrArg ClassName.entry h)

end LegalName

namespace ElementType

variable {e f : ElementType}

theorem bracket_not_mem_name (h : e.Legal) : '[' ∉ e.name.toList := by
  cases e with
  | primitive p => exact (plain_of_mem_typeKeywords p.name_mem_typeKeywords).2
  | object n => exact LegalName.bracket_not_mem_canonical h

theorem name_ne_void (h : e.Legal) : e.name ≠ "void" := by
  cases e with
  | primitive p => exact p.name_ne_void
  | object n =>
    intro hvoid
    refine LegalName.canonical_not_mem_typeKeywords h ?_
    rw [show ClassName.canonical n = "void" from hvoid]
    decide

/-- **Elements are told apart by their names.** -/
theorem eq_of_name_eq (he : e.Legal) (hf : f.Legal) (h : e.name = f.name) : e = f := by
  cases e with
  | primitive p =>
    cases f with
    | primitive q => rw [Primitive.eq_of_name_eq h]
    | object m =>
      refine absurd ?_ (LegalName.canonical_not_mem_typeKeywords hf)
      rw [show ClassName.canonical m = p.name from h.symm]
      exact p.name_mem_typeKeywords
  | object n =>
    cases f with
    | primitive q =>
      refine absurd ?_ (LegalName.canonical_not_mem_typeKeywords he)
      rw [show ClassName.canonical n = q.name from h]
      exact q.name_mem_typeKeywords
    | object m => rw [LegalName.eq_of_canonical_eq he hf h]

end ElementType

/-! ## 3. Names of types -/

/-- The characters of so many pairs of brackets. -/
def bracketPairs (n : Nat) : List Char := (String.join (List.replicate n "[]")).toList

theorem bracketPairs_succ (n : Nat) : bracketPairs (n + 1) = '[' :: ']' :: bracketPairs n := by
  rw [bracketPairs, List.replicate_succ, String.join_cons, String.toList_append]
  rfl

theorem length_bracketPairs (n : Nat) : (bracketPairs n).length = 2 * n := by
  induction n with
  | zero => rfl
  | succ n ih =>
    rw [bracketPairs_succ, List.length_cons, List.length_cons, ih]
    omega

/-- What stands before the brackets is what stands before the first opening one. -/
theorem takeWhile_append_bracketPairs {cs : List Char} (h : '[' ∉ cs) (n : Nat) :
    (cs ++ bracketPairs n).takeWhile (· != '[') = cs := by
  have hcs : ∀ c ∈ cs, (c != '[') = true := by
    intro c hc
    rw [bne_iff_ne]
    rintro rfl
    exact h hc
  rw [List.takeWhile_append_of_pos hcs]
  cases n with
  | zero => exact List.append_nil cs
  | succ n =>
    rw [bracketPairs_succ, List.takeWhile_cons_of_neg (by decide), List.append_nil]

namespace ReturnType

variable {r r' : ReturnType}

/-- What an array is made of, or the type itself; nothing for `void`. -/
def element? : ReturnType → Option ElementType
  | .void => none
  | .value (.single e) => some e
  | .value (.array e _) => some e

/-- How many dimensions the type has. -/
def depth : ReturnType → Nat
  | .void => 0
  | .value (.single _) => 0
  | .value (.array _ d) => d.toNat

/-- The name before the brackets. -/
def base (r : ReturnType) : String :=
  match r.element? with
  | none => "void"
  | some e => e.name

/-- A name is the one of the element, with a pair of brackets for each dimension. -/
theorem toList_name (r : ReturnType) : r.name.toList = r.base.toList ++ bracketPairs r.depth := by
  cases r with
  | void => rfl
  | value t =>
    cases t with
    | single e => exact (List.append_nil e.name.toList).symm
    | array e d => exact String.toList_append

theorem legal_of_element? (h : r.Legal) {e : ElementType} (he : r.element? = some e) :
    e.Legal := by
  cases r with
  | void => cases he
  | value t => cases t <;> cases he <;> exact h

theorem bracket_not_mem_base (h : r.Legal) : '[' ∉ r.base.toList := by
  unfold base
  cases he : r.element? with
  | none => decide
  | some e => exact ElementType.bracket_not_mem_name (legal_of_element? h he)

/-- The element is told by the name before the brackets. -/
theorem element?_eq_of_base_eq (h : r.Legal) (h' : r'.Legal) (hbase : r.base = r'.base) :
    r.element? = r'.element? := by
  unfold base at hbase
  cases he : r.element? with
  | none =>
    cases he' : r'.element? with
    | none => rfl
    | some e' =>
      rw [he, he'] at hbase
      exact absurd hbase.symm (ElementType.name_ne_void (legal_of_element? h' he'))
  | some e =>
    cases he' : r'.element? with
    | none =>
      rw [he, he'] at hbase
      exact absurd hbase (ElementType.name_ne_void (legal_of_element? h he))
    | some e' =>
      rw [he, he'] at hbase
      rw [ElementType.eq_of_name_eq (legal_of_element? h he) (legal_of_element? h' he') hbase]

/-- Only an array has dimensions, so element and dimensions make up the type. -/
theorem eq_of_element?_eq (h : r.WellFormed) (h' : r'.WellFormed)
    (he : r.element? = r'.element?) (hd : r.depth = r'.depth) : r = r' := by
  have harray : ∀ {e d}, (ReturnType.value (.array e d)).WellFormed → d.toNat ≠ 0 :=
    fun hvalid hzero => hvalid.2 (UInt8.toNat_inj.mp hzero)
  rcases r with _ | e | ⟨e, d⟩ <;> rcases r' with _ | e' | ⟨e', d'⟩
  · rfl
  · cases he
  · cases he
  · cases he
  · cases he
    rfl
  · exact absurd hd.symm (harray h')
  · cases he
  · exact absurd hd (harray h)
  · cases he
    rw [UInt8.toNat_inj.mp hd]

/-- **Types are told apart by their names.** -/
theorem eq_of_name_eq (h : r.WellFormed) (h' : r'.WellFormed) (hlegal : r.Legal)
    (hlegal' : r'.Legal) (hname : r.name = r'.name) : r = r' := by
  have hchars := congrArg String.toList hname
  rw [toList_name, toList_name] at hchars
  have hbase := congrArg (List.takeWhile (· != '[')) hchars
  rw [takeWhile_append_bracketPairs (bracket_not_mem_base hlegal),
    takeWhile_append_bracketPairs (bracket_not_mem_base hlegal')] at hbase
  rw [hbase, List.append_cancel_left_eq] at hchars
  have hlength := congrArg List.length hchars
  rw [length_bracketPairs, length_bracketPairs] at hlength
  exact eq_of_element?_eq h h'
    (element?_eq_of_base_eq hlegal hlegal' (String.toList_inj.mp hbase)) (by omega)

end ReturnType

/-! ## 4. Types of descriptors -/

/-- A type that some descriptor describes, alone or in a method. -/
inductive Described : ReturnType → Prop
  | field {s : String} {t : ValueType} (h : ValueType.parse s = .ok t) : Described (.value t)
  | param {s : String} {d : MethodDescriptor} {t : ValueType} (h : MethodDescriptor.parse s = .ok d)
      (ht : t ∈ d.params) : Described (.value t)
  | result {s : String} {d : MethodDescriptor} (h : MethodDescriptor.parse s = .ok d) :
      Described d.result

theorem Described.wellFormed {r : ReturnType} (h : Described r) : r.WellFormed := by
  cases h with
  | field h => exact (ValueType.parse_eq_ok_iff_eq_descriptor.mp h).1
  | param h ht => exact (MethodDescriptor.parse_eq_ok_iff_eq_descriptor.mp h).1.1 _ ht
  | result h => exact (MethodDescriptor.parse_eq_ok_iff_eq_descriptor.mp h).1.2

/-- Lists of types are told apart by the names in them. -/
theorem eq_of_map_name_eq {ts us : List ValueType} (hts : ∀ t ∈ ts, t.WellFormed ∧ t.Legal)
    (hus : ∀ u ∈ us, u.WellFormed ∧ u.Legal) (h : ts.map ValueType.name = us.map ValueType.name) :
    ts = us := by
  induction ts generalizing us with
  | nil => exact (List.map_eq_nil_iff.mp h.symm).symm
  | cons t ts ih =>
    obtain ⟨u, us, rfl, hname, hrest⟩ := List.map_eq_cons_iff.mp h.symm
    obtain ⟨⟨ht, htlegal⟩, hts⟩ := List.forall_mem_cons.mp hts
    obtain ⟨⟨hu, hulegal⟩, hus⟩ := List.forall_mem_cons.mp hus
    have hhead : ReturnType.value t = .value u :=
      ReturnType.eq_of_name_eq ht hu htlegal hulegal hname.symm
    rw [ReturnType.value.inj hhead, ih hts hus hrest.symm]

/-! ## 5. Parameters in descriptors -/

/-- The part of a method descriptor between its parentheses: the texts of some types, up to the
    parenthesis that stands where another type would start. -/
def ParamText (s p : String) : Prop :=
  ∃ (ts : List ValueType) (r : ReturnType), (∀ t ∈ ts, t.WellFormed) ∧ r.WellFormed ∧
    p = String.join (ts.map ValueType.descriptor) ∧ s = "(" ++ p ++ ")" ++ r.descriptor

/-- A descriptor that is parsed has one such part, the texts of its parameters. -/
theorem paramText_iff {s p : String} {d : MethodDescriptor} (h : MethodDescriptor.parse s = .ok d) :
    ParamText s p ↔ p = String.join (d.params.map ValueType.descriptor) := by
  constructor
  · intro hx
    obtain ⟨ts, r, hts, hr, rfl, hs⟩ := hx
    have hparse : MethodDescriptor.parse s = .ok ⟨ts, r⟩ :=
      MethodDescriptor.parse_eq_ok_iff_eq_descriptor.mpr ⟨⟨hts, hr⟩, hs⟩
    cases h.symm.trans hparse
    rfl
  · rintro rfl
    obtain ⟨⟨hparams, hresult⟩, hs⟩ := MethodDescriptor.parse_eq_ok_iff_eq_descriptor.mp h
    exact ⟨d.params, d.result, hparams, hresult, rfl, hs⟩

/-- Lists of types are told apart by their texts, one after the other. -/
theorem eq_of_join_descriptor_eq {ts us : List ValueType} (hts : ∀ t ∈ ts, t.WellFormed)
    (hus : ∀ u ∈ us, u.WellFormed)
    (h : String.join (ts.map ValueType.descriptor) = String.join (us.map ValueType.descriptor)) :
    ts = us := by
  have hparse : ∀ {xs : List ValueType}, (∀ x ∈ xs, x.WellFormed) →
      MethodDescriptor.parse (MethodDescriptor.mk xs .void).descriptor = .ok ⟨xs, .void⟩ :=
    fun hxs => MethodDescriptor.parse_eq_ok_iff_eq_descriptor.mpr ⟨⟨hxs, trivial⟩, rfl⟩
  have hsame : (MethodDescriptor.mk ts .void).descriptor =
      (MethodDescriptor.mk us .void).descriptor := by
    rw [MethodDescriptor.descriptor, MethodDescriptor.descriptor, h]
  have hboth := hparse hts
  rw [hsame, hparse hus] at hboth
  cases hboth
  rfl

/-! ## 6. Keys of methods -/

/-- Every method that is kept is shown by a member. -/
theorem exists_shows_of_mem {slots : List Constant} {members : List Member}
    {es : List MethodEntry} (h : List.Forall₂ (Member.Shows slots) members es) {e : MethodEntry}
    (he : e ∈ es) : ∃ member : Member, member.Shows slots e := by
  induction h with
  | nil => cases he
  | cons hhead _ ih =>
    rcases List.mem_cons.mp he with rfl | he
    · exact ⟨_, hhead⟩
    · exact ih he

namespace MethodEntry

/-- A method of some class that was parsed. -/
def Parsed (m : MethodEntry) : Prop :=
  ∃ (data : Bytes) (c : ClassFile), ClassFile.parse data = .ok c ∧ m ∈ c.methods

/-- The parameters have legal names only. -/
def Legal (m : MethodEntry) : Prop := ∀ t ∈ m.types.params, t.Legal

/-- The two methods have the same text between the parentheses of their descriptors. -/
def SameParams (m m' : MethodEntry) : Prop :=
  ∃ p, ParamText m.descriptor p ∧ ParamText m'.descriptor p

variable {m m' : MethodEntry}

/-- The types of a method are those that its descriptor describes. -/
theorem Parsed.parse_descriptor (h : m.Parsed) :
    MethodDescriptor.parse m.descriptor = .ok m.types := by
  obtain ⟨data, c, hc, hm⟩ := h
  obtain ⟨l, -, -, hshows⟩ := (ClassFile.parse_eq_ok_iff data c).mp hc
  obtain ⟨member, hmember⟩ := exists_shows_of_mem hshows.body.methods hm
  exact hmember.types

theorem Parsed.wellFormed (h : m.Parsed) : ∀ t ∈ m.types.params, t.WellFormed :=
  (MethodDescriptor.parse_eq_ok_iff_eq_descriptor.mp h.parse_descriptor).1.1

/-- Methods with the same parameters in their descriptors are those with the same types. -/
theorem sameParams_iff (h : m.Parsed) (h' : m'.Parsed) :
    m.SameParams m' ↔ m.types.params = m'.types.params := by
  constructor
  · intro hx
    obtain ⟨p, hp, hp'⟩ := hx
    rw [paramText_iff h.parse_descriptor] at hp
    rw [paramText_iff h'.parse_descriptor] at hp'
    exact eq_of_join_descriptor_eq h.wellFormed h'.wellFormed (hp.symm.trans hp')
  · intro hparams
    exact ⟨_, (paramText_iff h.parse_descriptor).mpr rfl,
      (paramText_iff h'.parse_descriptor).mpr (by rw [hparams])⟩

/-- **Keys are equal where names and parameters in descriptors are.** -/
theorem ofEntry_eq_ofEntry_iff (h : m.Parsed) (h' : m'.Parsed) (hlegal : m.Legal)
    (hlegal' : m'.Legal) :
    MethodKey.ofEntry m = .ofEntry m' ↔ m.name = m'.name ∧ m.SameParams m' := by
  rw [sameParams_iff h h', MethodKey.ofEntry_eq_iff]
  refine and_congr_right fun _ => ⟨fun hnames => ?_, fun hparams => ?_⟩
  · exact eq_of_map_name_eq (fun t ht => ⟨h.wellFormed t ht, hlegal t ht⟩)
      (fun t ht => ⟨h'.wellFormed t ht, hlegal' t ht⟩) hnames
  · exact congrArg (List.map ValueType.name) hparams

end MethodEntry

/-! ## 7. Entries of tables -/

/-- The table after some methods. -/
def SignatureTable.enterMethods (t : SignatureTable) (ms : List MethodEntry) : SignatureTable :=
  t.insertAll (ms.map fun m => (.ofEntry m, .ofEntry m))

/-- The table of a class is filled with its methods. -/
theorem SignatureTable.ofClass_eq_enterMethods (c : ClassFile) :
    ofClass c = (empty c.name).enterMethods c.methods :=
  ofClass_eq_insertAll c

/-- What is under a key after some methods was there before, or is that of one of them with this key
    or this erased key. -/
theorem SignatureTable.getElem?_enterMethods (t : SignatureTable) (ms : List MethodEntry)
    (k : MethodKey) :
    (t.enterMethods ms).methods[k]? = t.methods[k]? ∨
      ∃ m ∈ ms, (t.enterMethods ms).methods[k]? = some (.ofEntry m) ∧
        ((MethodKey.ofEntry m).erase = k ∨ MethodKey.ofEntry m = k) := by
  rw [enterMethods, getElem?_insertAll, ← List.map_reverse, List.find?_map]
  cases hfound : ms.reverse.find? ((fun e : MethodKey × MethodFacts =>
      decide (e.1.erase = k ∨ e.1 = k)) ∘ fun m => (.ofEntry m, .ofEntry m)) with
  | none => exact Or.inl rfl
  | some m =>
    have hm : m ∈ ms := List.mem_reverse.mp (List.mem_of_find?_eq_some hfound)
    have hkey := List.find?_some hfound
    exact Or.inr ⟨m, hm, rfl, by simpa using hkey⟩

/-- **Types, keys and entries that are told apart.** Types that descriptors describe, with legal
    class names, have names of their own. So the keys of two methods are equal exactly if the
    methods have one name and the same parameters in their descriptors, and what a table holds under
    the key of a method is replaced only by such a method, or by one whose erased key this is. -/
theorem names_and_keys_apart :
    (∀ r r', Described r → Described r' → r.Legal → r'.Legal → r.name = r'.name → r = r') ∧
    (∀ m m' : MethodEntry, m.Parsed → m'.Parsed → m.Legal → m'.Legal →
      (MethodKey.ofEntry m = .ofEntry m' ↔ m.name = m'.name ∧ m.SameParams m') ∧
      ∃ p, ∀ q, ParamText m.descriptor q ↔ q = p) ∧
    ∀ (t : SignatureTable) (ms : List MethodEntry) (m : MethodEntry), m.Parsed → m.Legal →
      (∀ e ∈ ms, e.Parsed ∧ e.Legal) →
      (t.enterMethods ms).methods[MethodKey.ofEntry m]? = t.methods[MethodKey.ofEntry m]? ∨
        ∃ e ∈ ms, (t.enterMethods ms).methods[MethodKey.ofEntry m]? = some (.ofEntry e) ∧
          (e.name = m.name ∧ e.SameParams m ∨ (MethodKey.ofEntry e).erase = .ofEntry m) := by
  refine ⟨fun r r' h h' hlegal hlegal' hname => ?_, fun m m' h h' hlegal hlegal' => ⟨?_, ?_⟩,
    fun t ms m h hlegal hms => ?_⟩
  · exact ReturnType.eq_of_name_eq h.wellFormed h'.wellFormed hlegal hlegal' hname
  · exact MethodEntry.ofEntry_eq_ofEntry_iff h h' hlegal hlegal'
  · exact ⟨_, fun q => paramText_iff h.parse_descriptor⟩
  · rcases t.getElem?_enterMethods ms (.ofEntry m) with hkept | ⟨e, he, hfacts, hkey⟩
    · exact Or.inl hkept
    · refine Or.inr ⟨e, he, hfacts, ?_⟩
      rcases hkey with herased | hexact
      · exact Or.inr herased
      · obtain ⟨hparsed, hlegal'⟩ := hms e he
        exact Or.inl ((MethodEntry.ofEntry_eq_ofEntry_iff hparsed h hlegal' hlegal).mp hexact)

/-- The setter of an object that `twoSetters` holds. -/
def objectSetter : MethodEntry :=
  ⟨"set", "(Ljava/lang/Object;)V", ⟨1⟩, ⟨[.single (.object "java/lang/Object")], .void⟩⟩

/-- The setter of a number that `twoSetters` holds behind it. -/
def intSetter : MethodEntry :=
  ⟨"set", "(I)Z", ⟨9⟩, ⟨[.single (.primitive .int)], .value (.single (.primitive .boolean))⟩⟩

/-- An array of a class `a/byte` has another name than an array of `byte`. The two setters have one
    name and keys of their own, with parameters in their descriptors; where the second one is
    entered under the key of the first one, this is its erased key. -/
theorem names_and_keys_apart_setters :
    ReturnType.name (.value (.array (.object "a/byte") 1)) ≠
      ReturnType.name (.value (.array (.primitive .byte) 1)) ∧
    ¬ intSetter.SameParams objectSetter ∧ (∃ p, ParamText intSetter.descriptor p) ∧
    ∀ t : SignatureTable, (t.enterMethods [intSetter]).methods[MethodKey.ofEntry objectSetter]? =
        t.methods[MethodKey.ofEntry objectSetter]? ∨
      (MethodKey.ofEntry intSetter).erase = .ofEntry objectSetter := by
  obtain ⟨htypes, hkeys, htables⟩ := names_and_keys_apart
  have hparse : ClassFile.parse twoSetters = .ok twoSettersClass := by decide +kernel
  have hobject : objectSetter.Parsed := ⟨_, _, hparse, List.mem_cons_self⟩
  have hint : intSetter.Parsed := ⟨_, _, hparse, List.mem_cons_of_mem _ List.mem_cons_self⟩
  have hlegalObject : objectSetter.Legal := by
    intro t ht
    rw [List.mem_singleton.mp ht]
    exact (⟨by decide, by decide, by decide⟩ : LegalName "java/lang/Object")
  have hlegalInt : intSetter.Legal := by
    intro t ht
    rw [List.mem_singleton.mp ht]
    trivial
  have hother : ¬ intSetter.SameParams objectSetter := by
    intro hsame
    have hequal := (hkeys _ _ hint hobject hlegalInt hlegalObject).1.mpr ⟨rfl, hsame⟩
    exact absurd hequal (by decide)
  refine ⟨fun hname => ?_, hother, ?_, fun t => ?_⟩
  · have hclass : ValueType.parse "[La/byte;" = .ok (.array (.object "a/byte") 1) := by
      decide +kernel
    have hbyte : ValueType.parse "[B" = .ok (.array (.primitive .byte) 1) := by decide +kernel
    have hlegal : LegalName "a/byte" := ⟨by decide, by decide, by decide⟩
    exact absurd (htypes _ _ (.field hclass) (.field hbyte) hlegal trivial hname) (by decide)
  · obtain ⟨p, hp⟩ := (hkeys _ _ hint hobject hlegalInt hlegalObject).2
    exact ⟨p, (hp p).mpr rfl⟩
  · rcases htables t [intSetter] objectSetter hobject hlegalObject
      (fun e he => List.mem_singleton.mp he ▸ ⟨hint, hlegalInt⟩) with hkept | ⟨e, he, -, hreplaced⟩
    · exact Or.inl hkept
    · obtain rfl := List.mem_singleton.mp he
      exact Or.inr (hreplaced.resolve_left fun hboth => hother hboth.2)

end SdkConformance
