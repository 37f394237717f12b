import Mathlib.Data.List.Forall2
import SdkConformance.Declaration.Manifest

/-!
# What a manifest says

A manifest is read field by field, from objects or from arrays. What has to be in a document for it
to be read as some declarations is said here by relations, without a reader.

* `JsonValue.HasFields`: the fields of a record, be it an object or an array;
  `fields?_eq_some_iff`: these are the fields that are read;
* `ManifestEntry`: a declaration as it is written, with the fields that are missing;
  `ManifestEntry.method`: the declaration it stands for, with what missing fields stand for;
* `Manifest.parse?_eq_some_iff`: the declarations of a document.
-/

namespace SdkConformance

/-- A list is read where each element is. -/
theorem mapM_eq_some_iff {α β : Type} {f : α → Option β} {as : List α} {bs : List β} :
    as.mapM f = some bs ↔ List.Forall₂ (fun a b => f a = some b) as bs := by
  induction as generalizing bs with
  | nil =>
    rw [List.mapM_nil, List.forall₂_nil_left_iff]
    exact ⟨fun h => (Option.some.inj h).symm, fun h => congrArg some h.symm⟩
  | cons a as ih =>
    rw [List.mapM_cons, List.forall₂_cons_left_iff]
    simp only [Option.bind_eq_bind, Option.bind_eq_some_iff, ih]
    constructor
    · intro h
      obtain ⟨b, hb, bs', hbs, heq⟩ := h
      exact ⟨b, bs', hb, hbs, (Option.some.inj heq).symm⟩
    · intro h
      obtain ⟨b, bs', hb, hbs, rfl⟩ := h
      exact ⟨b, hb, bs', hbs, rfl⟩

namespace JsonValue

/-! ## 1. Records -/

/-- The member of an object has this name. -/
def Named (name : String) (member : List UInt16 × JsonValue) : Prop :=
  (Utf16.decode? member.1).map String.ofList = some name

instance (name : String) (member : List UInt16 × JsonValue) : Decidable (Named name member) :=
  inferInstanceAs (Decidable (_ = _))

/-- The value of the only member of this name; without a value, no member has the name. -/
def MemberIs (members : List (List UInt16 × JsonValue)) (name : String) :
    Option JsonValue → Prop
  | none => members.filter (Named name ·) = []
  | some v => ∃ units, members.filter (Named name ·) = [(units, v)]

/-- **The fields of a record**, some of which may be missing. An array holds the first of them in
    order; the members of an object are all named, and those that are no fields do not count. -/
inductive HasFields (names : List String) : JsonValue → List (Option JsonValue) → Prop
  | items {items : List JsonValue} {fields : List (Option JsonValue)}
    (fits : items.length ≤ names.length) (length_eq : fields.length = names.length)
    (inOrder : ∀ (i : Nat) (hi : i < fields.length), fields[i] = items[i]?) :
    HasFields names (.array items) fields
  | members {members : List (List UInt16 × JsonValue)} {fields : List (Option JsonValue)}
    (named : ∀ p ∈ members, ∃ name, Named name p)
    (once : List.Forall₂ (MemberIs members) names fields) : HasFields names (.object members) fields

/-- Members that are named, and these names. -/
theorem named?_eq_some_iff {members : List (List UInt16 × JsonValue)}
    {ms : List (String × JsonValue)} : named? members = some ms ↔
      List.Forall₂ (fun p q => Named q.1 p ∧ q.2 = p.2) members ms := by
  rw [named?, mapM_eq_some_iff]
  refine Iff.of_eq (congrArg (List.Forall₂ · members ms) ?_)
  funext p q
  obtain ⟨units, v⟩ := p
  obtain ⟨name, w⟩ := q
  simp only [Named, Option.map_eq_some_iff, Prod.mk.injEq]
  refine propext ⟨fun h => ?_, fun h => ?_⟩
  · obtain ⟨cs, hcs, rfl, rfl⟩ := h
    exact ⟨⟨cs, hcs, rfl⟩, rfl⟩
  · obtain ⟨⟨cs, hcs, rfl⟩, rfl⟩ := h
    exact ⟨cs, hcs, rfl, rfl⟩

theorem exists_named?_iff {members : List (List UInt16 × JsonValue)} :
    (∃ ms, named? members = some ms) ↔ ∀ p ∈ members, ∃ name, Named name p := by
  simp only [named?_eq_some_iff]
  induction members with
  | nil => exact ⟨fun _ => by simp, fun _ => ⟨[], .nil⟩⟩
  | cons p members ih =>
    rw [List.forall_mem_cons, ← ih]
    constructor
    · intro h
      obtain ⟨_, hms⟩ := h
      obtain ⟨q, ms, hq, hrest, rfl⟩ := List.forall₂_cons_left_iff.mp hms
      exact ⟨⟨q.1, hq.1⟩, ms, hrest⟩
    · intro h
      obtain ⟨⟨name, hname⟩, ms, hrest⟩ := h
      exact ⟨(name, p.2) :: ms, .cons ⟨hname, rfl⟩ hrest⟩

/-- The members that are found by a name are those that have it. -/
theorem forall₂_filter_named? {members : List (List UInt16 × JsonValue)}
    {ms : List (String × JsonValue)} (h : named? members = some ms) (name : String) :
    List.Forall₂ (fun p q => q.2 = p.2) (members.filter (Named name ·))
      (ms.filter (·.1 == name)) := by
  induction named?_eq_some_iff.mp h with
  | nil => exact .nil
  | @cons p q ps qs hpq hrest ih =>
    have hname : decide (Named name p) = (q.1 == name) := by
      rw [beq_eq_decide]
      refine decide_eq_decide.mpr ⟨fun hp => ?_, fun heq => heq ▸ hpq.1⟩
      exact Option.some.inj (hpq.1.symm.trans hp)
    have hih := ih (named?_eq_some_iff.mpr hrest)
    rw [List.filter_cons, List.filter_cons, hname]
    split
    · exact .cons hpq.2 hih
    · exact hih

theorem member?_eq_some_iff {members : List (List UInt16 × JsonValue)}
    {ms : List (String × JsonValue)} (h : named? members = some ms) (name : String)
    {field : Option JsonValue} :
    member? name ms = some field ↔ MemberIs members name field := by
  have hfound := forall₂_filter_named? h name
  have hnil : MemberIs members name none ↔ members.filter (Named name ·) = [] := Iff.rfl
  have hone : ∀ v, MemberIs members name (some v) ↔
      ∃ units, members.filter (Named name ·) = [(units, v)] := fun _ => Iff.rfl
  unfold member?
  generalize ms.filter (·.1 == name) = found at hfound
  generalize members.filter (Named name ·) = sought at hfound hnil hone
  -- there are as many of the one as of the other: none, one, or more
  cases hfound with
  | nil =>
    cases field with
    | none => exact ⟨fun _ => hnil.mpr rfl, fun _ => rfl⟩
    | some v => exact ⟨nofun, fun hv => absurd ((hone v).mp hv) nofun⟩
  | @cons p q ps qs hvalue hrest =>
    obtain ⟨units, w⟩ := p
    obtain ⟨key, w'⟩ := q
    obtain rfl : w' = w := hvalue
    cases hrest with
    | nil =>
      cases field with
      | none => exact ⟨nofun, fun hv => absurd (hnil.mp hv) nofun⟩
      | some v =>
        rw [hone]
        constructor
        · intro hv
          cases hv
          exact ⟨units, rfl⟩
        · intro hv
          obtain ⟨_, hv⟩ := hv
          cases hv
          rfl
    | cons =>
      cases field with
      | none => exact ⟨nofun, fun hv => absurd (hnil.mp hv) nofun⟩
      | some v => exact ⟨nofun, fun hv => absurd ((hone v).mp hv) nofun⟩

/-- An array holds the first fields in order. -/
theorem hasFields_array_iff {names : List String} {items : List JsonValue}
    {fields : List (Option JsonValue)} :
    HasFields names (.array items) fields ↔ items.length ≤ names.length ∧
      items.map some ++ List.replicate (names.length - items.length) none = fields := by
  constructor
  · intro h
    cases h with
    | items fits hlength inOrder =>
      refine ⟨fits, List.ext_getElem ?_ fun i hi hi' => ?_⟩
      · rw [List.length_append, List.length_map, List.length_replicate, hlength]
        omega
      · rw [inOrder i hi', List.getElem_append]
        split
        · rename_i hlt
          rw [List.getElem_map, List.getElem?_eq_getElem]
        · rename_i hge
          rw [List.getElem_replicate, List.getElem?_eq_none]
          simpa using hge
  · intro h
    obtain ⟨fits, rfl⟩ := h
    refine .items fits ?_ fun i hi => ?_
    · rw [List.length_append, List.length_map, List.length_replicate]
      omega
    · rw [List.getElem_append]
      split
      · rw [List.getElem_map, List.getElem?_eq_getElem]
      · rename_i hge
        rw [List.getElem_replicate, List.getElem?_eq_none]
        simpa using hge

/-- **The fields that are read are those of the record.** -/
theorem fields?_eq_some_iff {names : List String} {v : JsonValue}
    {fields : List (Option JsonValue)} :
    v.fields? names = some fields ↔ HasFields names v fields := by
  cases v with
  | array items =>
    rw [hasFields_array_iff, fields?]
    split
    · rename_i fits
      rw [Option.some.injEq, and_iff_right fits]
    · rename_i fits
      exact ⟨nofun, fun h => absurd h.1 fits⟩
  | object members =>
    rw [fields?]
    simp only [Option.bind_eq_bind, Option.bind_eq_some_iff, mapM_eq_some_iff]
    constructor
    · intro h
      obtain ⟨ms, hms, hfields⟩ := h
      simp only [member?_eq_some_iff hms] at hfields
      exact .members (exists_named?_iff.mp ⟨ms, hms⟩) hfields
    · intro h
      cases h with
      | members named once =>
        obtain ⟨ms, hms⟩ := exists_named?_iff.mpr named
        refine ⟨ms, hms, ?_⟩
        simp only [member?_eq_some_iff hms]
        exact once
  | null => exact ⟨nofun, nofun⟩
  | bool b => exact ⟨nofun, nofun⟩
  | number literal => exact ⟨nofun, nofun⟩
  | string units => exact ⟨nofun, nofun⟩

/-- A field is there and is read as this, or both are missing. -/
inductive Given {α : Type} (read? : JsonValue → Option α) : Option JsonValue → Option α → Prop
  | missing : Given read? none none
  | present {v : JsonValue} {a : α} (h : read? v = some a) : Given read? (some v) (some a)

/-- What is read of a field that may be missing is what was given, or what stands in for it. -/
theorem optional?_eq_some_iff {α : Type} {default : α} {read? : JsonValue → Option α}
    {field : Option JsonValue} {a : α} :
    optional? default read? field = some a ↔ ∃ o, Given read? field o ∧ o.getD default = a := by
  cases field with
  | none =>
    constructor
    · intro h
      exact ⟨none, .missing, Option.some.inj h⟩
    · intro h
      obtain ⟨_, ⟨⟩, rfl⟩ := h
      rfl
  | some v =>
    constructor
    · intro h
      exact ⟨some a, .present h, rfl⟩
    · intro h
      obtain ⟨_, hgiven, rfl⟩ := h
      cases hgiven with
      | present hv => exact hv

end JsonValue

/-! ## 2. Declarations -/

/-- A declaration as it is written: only the class and the name have to be there. -/
structure ManifestEntry where
  className : String
  name : String
  params : Option (List String)
  isStatic : Option Bool
  returnType : Option String
  low : Option Int
  high : Option Int
  classLow : Option Int
  classHigh : Option Int

namespace ManifestEntry

/-- The declaration: without parameters there are none, a method is not static and returns nothing
    unless that is said, and a missing bound is that of −1. -/
def method (e : ManifestEntry) : DeclaredMethod where
  className := e.className
  name := e.name
  params := e.params.getD []
  isStatic := e.isStatic.getD false
  returnType := e.returnType.getD "void"
  range := .ofInts (e.low.getD (-1)) (e.high.getD (-1))
  classRange := .ofInts (e.classLow.getD (-1)) (e.classHigh.getD (-1))

open JsonValue in
/-- The value is a record with the fields of the declaration. -/
def Written (e : ManifestEntry) (v : JsonValue) : Prop :=
  ∃ className name params isStatic returnType low high classLow classHigh,
    HasFields Manifest.methodFields v [some className, some name, params, isStatic, returnType, low,
      high, classLow, classHigh] ∧
    className.text? = some e.className ∧ name.text? = some e.name ∧
    Given Manifest.texts? params e.params ∧ Given bool? isStatic e.isStatic ∧
    Given text? returnType e.returnType ∧ Given Manifest.bound? low e.low ∧
    Given Manifest.bound? high e.high ∧ Given Manifest.bound? classLow e.classLow ∧
    Given Manifest.bound? classHigh e.classHigh

end ManifestEntry

namespace Manifest

/-- **A declaration is read exactly where one is written.** -/
theorem method?_eq_some_iff {v : JsonValue} {m : DeclaredMethod} :
    method? v = some m ↔ ∃ e : ManifestEntry, e.Written v ∧ e.method = m := by
  constructor
  · intro h
    unfold method? at h
    simp only [Option.bind_eq_bind, Option.bind_eq_some_iff] at h
    obtain ⟨fields, hfields, h⟩ := h
    split at h
    · rename_i className name params isStatic returnType low high classLow classHigh
      simp only [Option.bind_eq_some_iff, JsonValue.optional?_eq_some_iff, Option.pure_def,
        Option.some.injEq] at h
      obtain ⟨c, rfl, cn, hc, n, rfl, nn, hn, _, ⟨ps, hps, rfl⟩, _, ⟨s, hs, rfl⟩, _, ⟨t, ht, rfl⟩,
        _, ⟨lo, hlo, rfl⟩, _, ⟨hi, hhi, rfl⟩, _, ⟨clo, hclo, rfl⟩, _, ⟨chi, hchi, rfl⟩, rfl⟩ := h
      exact ⟨⟨cn, nn, ps, s, t, lo, hi, clo, chi⟩, ⟨c, n, params, isStatic, returnType, low, high,
        classLow, classHigh, JsonValue.fields?_eq_some_iff.mp hfields, hc, hn, hps, hs, ht, hlo,
        hhi, hclo, hchi⟩, rfl⟩
    · cases h
  · intro h
    obtain ⟨e, ⟨c, n, params, isStatic, returnType, low, high, classLow, classHigh, hfields, hc, hn,
      hps, hs, ht, hlo, hhi, hclo, hchi⟩, rfl⟩ := h
    have hread : ∀ {α : Type} {default : α} {read? : JsonValue → Option α} {field o},
        JsonValue.Given read? field o →
          JsonValue.optional? default read? field = some (o.getD default) :=
      fun hgiven => JsonValue.optional?_eq_some_iff.mpr ⟨_, hgiven, rfl⟩
    unfold method?
    rw [JsonValue.fields?_eq_some_iff.mpr hfields]
    simp only [Option.bind_eq_bind, Option.bind_some, hc, hn, hread hps, hread hs, hread ht,
      hread hlo, hread hhi, hread hclo, hread hchi]
    rfl

/-- The declarations are written in the document of the text, in their order. -/
def Written (text : String) (ms : List DeclaredMethod) : Prop :=
  ∃ document items, JsonValue.parse? text = some document ∧
    JsonValue.HasFields ["methods"] document [some (.array items)] ∧
    List.Forall₂ (fun v m => ∃ e : ManifestEntry, e.Written v ∧ e.method = m) items ms

/-- **A text is read as a manifest exactly where its declarations are written in it.** -/
theorem parse?_eq_some_iff {text : String} {manifest : Manifest} :
    parse? text = some manifest ↔ Written text manifest.methods := by
  unfold Written parse?
  simp only [Option.bind_eq_some_iff, ofJson?, Option.bind_eq_bind,
    JsonValue.fields?_eq_some_iff, ← method?_eq_some_iff, ← mapM_eq_some_iff]
  constructor
  · intro h
    obtain ⟨document, hdocument, fields, hfields, h⟩ := h
    split at h
    · rename_i methods
      simp only [Option.bind_eq_some_iff, Option.pure_def, Option.some.injEq] at h
      obtain ⟨items, hitems, ms, hms, rfl⟩ := h
      cases methods with
      | array items' =>
        cases hitems
        exact ⟨document, items, hdocument, hfields, hms⟩
      | _ => cases hitems
    · cases h
  · intro h
    obtain ⟨document, items, hdocument, hfields, hms⟩ := h
    refine ⟨document, hdocument, _, hfields, ?_⟩
    simp only [JsonValue.array?, Option.bind_some, hms]
    rfl

end Manifest

end SdkConformance
