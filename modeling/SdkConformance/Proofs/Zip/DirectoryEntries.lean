import SdkConformance.Zip.Jar

/-!
# The entries of a directory

What is known of the entries of every container: their sizes fit into eight octets, and a jar finds
the last entry of each name.

* `Preserves`: a property of an entry that a step of reading its extra fields keeps, also if the
  step fails;
* `size_lt_of_find`: the sizes in a directory are numbers of 64 bits;
* `Jar.Indexed`: what a jar knows after some entries; `Jar.Indexed.enter` is its step and
  `Jar.indexed_ofBytes` the run;
* `Recorded`, `entry?_eq_some_iff`, `mem_names_iff`: what the directory says of a name, and what a
  jar finds.
-/

namespace SdkConformance

/-! ## 1. Results and numbers -/

theorem eq_ok_of_toOption {ε α : Type} {x : Except ε α} {a : α} (h : x.toOption = some a) :
    x = .ok a := by
  cases x with
  | error e => cases h
  | ok b => exact congrArg _ (Option.some.inj h)

theorem Bytes.littleEndian_lt (bs : Bytes) : Bytes.littleEndian bs < Bytes.span bs.length := by
  induction bs with
  | nil => decide
  | cons b bs ih =>
    have hb := b.toNat_lt
    rw [Bytes.littleEndian, List.length_cons, Bytes.span_succ]
    omega

theorem Bytes.span_mono {n m : Nat} (h : n ≤ m) : Bytes.span n ≤ Bytes.span m :=
  Nat.pow_le_pow_right (by decide) h

theorem Bytes.numberAt_lt (bs : Bytes) (offset width : Nat) :
    Bytes.numberAt bs offset width < Bytes.span width :=
  Nat.lt_of_lt_of_le (littleEndian_lt _) (span_mono (List.length_take_le _ _))

/-! ## 2. Extra fields -/

namespace ExtraField

/-- Where a step of reading ends, or fails. -/
def reached {α : Type} : EStateM.Result ZipFault Reading α → Reading
  | .ok _ r | .error _ r => r

section Preserves

variable {α β : Type} {p : ZipEntry → Prop}

/-- A step of reading that leaves the entry its property, even if it fails. -/
def Preserves (p : ZipEntry → Prop) (x : Reader α) : Prop :=
  ∀ r, p r.entry → p (reached (x r)).entry

/-- One step after another; the second one may use what the first one answers. -/
theorem Preserves.bind {x : Reader α} {f : α → Reader β} (hx : Preserves p x)
    (hf : ∀ a, (∃ r r', x r = .ok a r') → Preserves p (f a)) : Preserves p (x >>= f) := by
  intro r hr
  have hstep := hx r hr
  show p (reached (EStateM.bind x f r)).entry
  unfold EStateM.bind
  cases hread : x r with
  | ok a r' =>
    rw [hread] at hstep
    exact hf a ⟨r, r', hread⟩ r' hstep
  | error e r' =>
    rw [hread] at hstep
    exact hstep

theorem preserves_pure (a : α) : Preserves p (pure a : Reader α) := fun _ h => h

theorem preserves_throw (fault : ZipFault) : Preserves p (throw fault : Reader α) := fun _ h => h

theorem preserves_get : Preserves p (get : Reader Reading) := fun _ h => h

theorem octets_apply (n : Nat) (r : Reading) :
    octets n r = if holds n r.rest then .ok (r.rest.take n) { r with rest := r.rest.drop n }
      else .error .cutOff r := by
  show (if holds n r.rest then _ else _ : Reader Bytes) r = _
  split <;> rfl

theorem preserves_octets (n : Nat) : Preserves p (octets n) := by
  intro r hr
  rw [octets_apply]
  split <;> exact hr

theorem preserves_discard {x : Reader α} (hx : Preserves p x) : Preserves p (discard x) := by
  show Preserves p (x >>= fun _ => pure ())
  exact hx.bind fun _ _ => preserves_pure ()

theorem preserves_number (width : Nat) : Preserves p (number width) :=
  (preserves_octets width).bind fun _ _ => preserves_pure _

theorem number_lt {width n : Nat} {r r' : Reading} (h : number width r = .ok n r') :
    n < Bytes.span width := by
  have hrun : number width r = EStateM.bind (octets width)
      (fun bs => pure (Bytes.littleEndian bs)) r := rfl
  rw [hrun, EStateM.bind, octets_apply] at h
  by_cases hholds : holds width r.rest = true
  · rw [if_pos hholds] at h
    cases h
    have hlength := List.length_take_le width r.rest
    exact Nat.lt_of_lt_of_le (Bytes.littleEndian_lt _) (Bytes.span_mono hlength)
  · rw [if_neg hholds] at h
    cases h

theorem preserves_amend {f : ZipEntry → ZipEntry} (hf : ∀ e, p e → p (f e)) :
    Preserves p (amend f) :=
  fun r hr => hf r.entry hr

theorem preserves_demand (condition : Bool) : Preserves p (demand condition) := by
  unfold demand
  split
  · exact preserves_pure ()
  · exact preserves_throw _

theorem preserves_largeNumber {length : Nat} {given : ZipEntry → Nat}
    {put : Nat → ZipEntry → ZipEntry} (hput : ∀ n < Bytes.span 8, ∀ e, p e → p (put n e)) :
    Preserves p (largeNumber length given put) := by
  refine preserves_get.bind fun r _ => ?_
  split
  · refine (preserves_number 8).bind fun n hn => ?_
    obtain ⟨r, r', hread⟩ := hn
    have hlt := number_lt hread
    exact (preserves_amend (hput n hlt)).bind fun _ _ => preserves_pure 8
  · exact preserves_pure 0

end Preserves

/-- The size of an entry fits into eight octets. -/
def Sized (e : ZipEntry) : Prop := e.size < Bytes.span 8

theorem preserves_largeNumbers (length : Nat) : Preserves Sized (largeNumbers length) := by
  unfold largeNumbers
  refine Preserves.bind (preserves_largeNumber fun _ hn _ _ => hn) fun a _ => ?_
  refine Preserves.bind (preserves_largeNumber fun _ _ _ he => he) fun b _ => ?_
  refine Preserves.bind (preserves_largeNumber fun _ _ _ he => he) fun c _ => ?_
  exact (preserves_demand _).bind fun _ _ => preserves_discard (preserves_octets _)

theorem preserves_fileTimes (length : Nat) : Preserves Sized (fileTimes length) := by
  unfold fileTimes
  refine (preserves_demand _).bind fun _ _ => ?_
  refine (preserves_discard (preserves_octets 4)).bind fun _ _ => ?_
  refine (preserves_number 2).bind fun _ _ => (preserves_demand _).bind fun _ _ => ?_
  refine (preserves_number 2).bind fun _ _ => (preserves_demand _).bind fun _ _ => ?_
  exact preserves_discard (preserves_octets 24)

theorem preserves_unixTimes (length : Nat) : Preserves Sized (unixTimes length) := by
  unfold unixTimes
  refine (preserves_number 1).bind fun flags _ => ?_
  refine (preserves_demand _).bind fun _ _ => (preserves_demand _).bind fun _ _ => ?_
  exact preserves_discard (preserves_octets _)

theorem preserves_aes (length : Nat) : Preserves Sized (aes length) := by
  unfold aes
  refine (preserves_demand _).bind fun _ _ => ?_
  refine (preserves_number 2).bind fun version _ => ?_
  refine (preserves_number 2).bind fun vendor _ => ?_
  refine (preserves_number 1).bind fun strength _ => ?_
  refine (preserves_number 2).bind fun compression _ => ?_
  refine (preserves_demand _).bind fun _ _ => ?_
  refine (preserves_demand _).bind fun _ _ => ?_
  exact (preserves_demand _).bind fun _ _ => preserves_amend fun _ he => he

theorem preserves_substitute (length : Nat) (replaced : ZipEntry → Bytes) :
    Preserves Sized (substitute length replaced) := by
  unfold substitute
  refine (preserves_discard (preserves_octets 1)).bind fun _ _ => ?_
  refine (preserves_number 4).bind fun crc _ => (preserves_demand _).bind fun _ _ => ?_
  refine (preserves_octets _).bind fun bs _ => preserves_get.bind fun r _ => ?_
  refine (preserves_demand _).bind fun _ _ => ?_
  split
  · exact preserves_pure _
  · exact preserves_throw _

theorem preserves_unicodeName (length : Nat) : Preserves Sized (unicodeName length) :=
  (preserves_substitute _ _).bind fun _ _ => preserves_amend fun _ he => he

theorem preserves_unicodeComment (length : Nat) : Preserves Sized (unicodeComment length) :=
  (preserves_substitute _ _).bind fun _ _ => preserves_amend fun _ he => he

theorem preserves_field : Preserves Sized field := by
  refine (preserves_number 2).bind fun kind _ => (preserves_number 2).bind fun length _ => ?_
  split
  · exact preserves_largeNumbers length
  split
  · exact preserves_fileTimes length
  split
  · exact preserves_aes length
  split
  · exact preserves_unixTimes length
  split
  · exact preserves_unicodeComment length
  split
  · exact preserves_unicodeName length
  · exact preserves_discard (preserves_octets length)

/-- Fields leave the size within eight octets, wherever they end. -/
theorem preserves_fields (fuel : Nat) : Preserves Sized (fields fuel) := by
  induction fuel with
  | zero => exact preserves_pure ()
  | succ fuel ih =>
    refine preserves_get.bind fun r _ => ?_
    split
    · exact preserves_pure ()
    · exact preserves_field.bind fun _ _ => ih

end ExtraField

/-! ## 3. Directories -/

open ExtraField (Sized)

theorem ZipEntry.sized_of_amended? {e e' : ZipEntry} {extra : Bytes} (he : Sized e)
    (h : e.amended? extra = some e') : Sized e' := by
  have hfields := ExtraField.preserves_fields extra.length ⟨e, extra⟩ he
  have hread := (Option.filter_eq_some_iff.mp h).1
  rw [EStateM.run] at hread
  split at hread
  all_goals rename_i heq; rw [heq] at hfields; cases hread
  all_goals exact hfields

theorem ZipEntry.sized_of_read? {bs rest : Bytes} {e : ZipEntry} (h : read? bs = some (e, rest)) :
    Sized e := by
  unfold read? at h
  dsimp only at h
  split at h
  · obtain ⟨e', he', heq⟩ := Option.map_eq_some_iff.mp h
    cases heq
    refine sized_of_amended? ?_ he'
    exact Nat.lt_of_lt_of_le (Bytes.numberAt_lt bs 24 4) (Bytes.span_mono (by decide))
  · cases h

namespace ZipDirectory

theorem sized_of_readHeaders? {place : DirectoryPlace} {count : Nat} {done es : List ZipEntry}
    {bs : Bytes} (hdone : ∀ e ∈ done, Sized e) (h : readHeaders? place count done bs = some es) :
    ∀ e ∈ es, Sized e := by
  induction count generalizing done bs with
  | zero =>
    cases h
    intro e he
    exact hdone e (List.mem_reverse.mp he)
  | succ count ih =>
    rw [readHeaders?] at h
    split at h
    · cases h
    · rename_i e rest hread
      dsimp only at h
      split at h
      · cases h
      · have he : e.size < Bytes.span 8 := ZipEntry.sized_of_read? hread
        refine ih (fun e' he' => ?_) h
        rcases List.mem_cons.mp he' with rfl | he'
        · exact he
        · exact hdone e' he'

theorem sized_of_findFrom {data : Bytes} {offsets : List Nat} {fault : Option ZipFault}
    {es : List ZipEntry} (h : findFrom data offsets fault = .ok es) : ∀ e ∈ es, Sized e := by
  induction offsets generalizing fault with
  | nil => cases h
  | cons offset offsets ih =>
    rw [findFrom] at h
    split at h
    · exact ih h
    · split at h
      · exact ih h
      · split at h
        · rename_i place _ _ hentries
          cases h
          unfold entries? at hentries
          split at hentries
          · exact sized_of_readHeaders? (List.forall_mem_nil _) hentries
          · cases hentries
        · exact ih h

/-- **The sizes in a directory** are numbers of 64 bits. -/
theorem size_lt_of_find {data : Bytes} {es : List ZipEntry} (h : find data = .ok es) :
    ∀ e ∈ es, e.size < UInt64.size :=
  sized_of_findFrom h

end ZipDirectory

/-! ## 4. The last entry of a name -/

/-- Of the entries of a name, the last one. -/
def lastNamed? (es : List ZipEntry) (name : String) : Option ZipEntry :=
  es.reverse.find? fun e => e.name == name

theorem lastNamed?_concat (es : List ZipEntry) (e : ZipEntry) (name : String) :
    lastNamed? (es ++ [e]) name = if e.name = name then some e else lastNamed? es name := by
  rw [lastNamed?, List.reverse_append, List.reverse_singleton, List.singleton_append,
    List.find?_cons]
  by_cases h : e.name = name
  · rw [if_pos h, beq_iff_eq.mpr h]
  · rw [if_neg h, beq_false_of_ne h]
    rfl

/-- The last entry of a name is the one behind which there is no other. -/
theorem lastNamed?_eq_some_iff {es : List ZipEntry} {name : String} {e : ZipEntry} :
    lastNamed? es name = some e ↔ ∃ before after, es = before ++ e :: after ∧ e.name = name ∧
      ∀ e' ∈ after, e'.name ≠ name := by
  rw [lastNamed?, List.find?_eq_some_iff_append]
  constructor
  · intro h
    obtain ⟨hname, after, before, hes, hafter⟩ := h
    refine ⟨before.reverse, after.reverse, ?_, eq_of_beq hname, fun e' he' heq => ?_⟩
    · rw [← List.reverse_reverse es, hes, List.reverse_append, List.reverse_cons, List.append_assoc,
        List.singleton_append]
    · have hother := hafter e' (List.mem_reverse.mp he')
      rw [heq, beq_self_eq_true] at hother
      cases hother
  · intro h
    obtain ⟨before, after, rfl, hname, hafter⟩ := h
    refine ⟨beq_iff_eq.mpr hname, after.reverse, before.reverse, ?_, fun e' he' => ?_⟩
    · rw [List.reverse_append, List.reverse_cons, List.append_assoc, List.singleton_append]
    · rw [beq_false_of_ne (hafter e' (List.mem_reverse.mp he'))]
      rfl

/-! ## 5. What a jar finds -/

namespace Jar

/-- What a jar knows after some entries: the last one of each name, and the place of every name. -/
structure Indexed (j : Jar) (es : List ZipEntry) : Prop where
  entry : ∀ name, j.entry? name = lastNamed? es name
  place : ∀ name i, j.places[name]? = some i ↔
    ∃ e : ZipEntry, j.entries[i]? = some e ∧ e.name = name

theorem entry?_eq_bind (j : Jar) (name : String) :
    j.entry? name = j.places[name]?.bind fun i => j.entries[i]? := rfl

theorem indexed_empty (data : Bytes) : Indexed ⟨data, #[], ∅⟩ [] where
  entry name := by
    rw [entry?_eq_bind, Std.HashMap.getElem?_empty]
    rfl
  place name i := by
    rw [Std.HashMap.getElem?_empty]
    refine ⟨nofun, fun h => ?_⟩
    obtain ⟨e, he, -⟩ := h
    cases he

section Enter

variable {j : Jar} {es : List ZipEntry} {e : ZipEntry}

/-- An entry of a known name takes the place of the one before. -/
theorem Indexed.enter_known (h : Indexed j es) {i : Nat} (hi : j.places[e.name]? = some i) :
    Indexed { j with entries := j.entries.setIfInBounds i e } (es ++ [e]) := by
  obtain ⟨e₀, he₀, hname₀⟩ := (h.place e.name i).mp hi
  have hlt : i < j.entries.size := (Array.getElem?_eq_some_iff.mp he₀).1
  have hsame : (j.entries.setIfInBounds i e)[i]? = some e := by
    rw [Array.getElem?_setIfInBounds_self_of_lt hlt]
  have hother : ∀ {k}, k ≠ i → (j.entries.setIfInBounds i e)[k]? = j.entries[k]? := by
    intro k hk
    rw [Array.getElem?_setIfInBounds_ne hk.symm]
  constructor
  · intro name
    rw [lastNamed?_concat, entry?_eq_bind]
    by_cases hname : e.name = name
    · rw [if_pos hname, ← hname, hi]
      exact hsame
    · rw [if_neg hname, ← h.entry name, entry?_eq_bind]
      cases hk : j.places[name]? with
      | none => rfl
      | some k =>
        refine hother fun heq => hname ?_
        obtain ⟨e₁, he₁, hname₁⟩ := (h.place name k).mp hk
        rw [heq, he₀] at he₁
        cases he₁
        exact hname₀.symm.trans hname₁
  · intro name k
    by_cases hk : k = i
    · rw [hk, hsame, h.place name i, he₀]
      simp only [Option.some.injEq, exists_eq_left', hname₀]
    · rw [hother hk]
      exact h.place name k

/-- An entry of a new name gets a new place. -/
theorem Indexed.enter_new (h : Indexed j es) (hnew : j.places[e.name]? = none) :
    Indexed { j with entries := j.entries.push e, places := j.places.insert e.name j.entries.size }
      (es ++ [e]) := by
  have hold : ∀ {name : String} {k : Nat}, j.places[name]? = some k →
      (j.entries.push e)[k]? = j.entries[k]? := by
    intro name k hk
    obtain ⟨e₀, he₀, -⟩ := (h.place name k).mp hk
    have hlt : k < j.entries.size := (Array.getElem?_eq_some_iff.mp he₀).1
    rw [Array.getElem?_push, if_neg (Nat.ne_of_lt hlt)]
  constructor
  · intro name
    rw [lastNamed?_concat, entry?_eq_bind]
    dsimp only
    rw [Std.HashMap.getElem?_insert]
    by_cases hname : e.name = name
    · rw [if_pos hname, if_pos (beq_iff_eq.mpr hname), Option.bind_some, Array.getElem?_push_size]
    · rw [if_neg hname, if_neg (fun heq => hname (eq_of_beq heq)), ← h.entry name, entry?_eq_bind]
      cases hk : j.places[name]? with
      | none => rfl
      | some k => exact hold hk
  · intro name k
    dsimp only
    by_cases hname : e.name = name
    · rw [Std.HashMap.getElem?_insert, if_pos (beq_iff_eq.mpr hname), Option.some.injEq]
      constructor
      · rintro rfl
        exact ⟨e, Array.getElem?_push_size, hname⟩
      · intro hk
        obtain ⟨e', he', hname'⟩ := hk
        rw [Array.getElem?_push] at he'
        by_cases heq : k = j.entries.size
        · exact heq.symm
        · -- the name would have had a place before
          rw [if_neg heq] at he'
          have hplace := (h.place name k).mpr ⟨e', he', hname'⟩
          rw [← hname, hnew] at hplace
          cases hplace
    · rw [Std.HashMap.getElem?_insert, if_neg fun heq => hname (eq_of_beq heq), h.place name k,
        Array.getElem?_push]
      by_cases heq : k = j.entries.size
      · rw [if_pos heq, heq, Array.getElem?_size]
        simp only [Option.some.injEq, exists_eq_left', hname, reduceCtorEq, false_and, exists_false]
      · rw [if_neg heq]

theorem Indexed.enter (h : Indexed j es) (e : ZipEntry) : Indexed (j.enter e) (es ++ [e]) := by
  unfold Jar.enter
  split
  · rename_i i hi
    exact h.enter_known hi
  · rename_i hnew
    exact h.enter_new hnew

theorem Indexed.foldl_enter (h : Indexed j es) (es' : List ZipEntry) :
    Indexed (es'.foldl Jar.enter j) (es ++ es') := by
  induction es' generalizing j es with
  | nil =>
    rw [List.append_nil]
    exact h
  | cons e es' ih =>
    rw [List.append_cons]
    exact ih (h.enter e)

theorem data_foldl_enter (es : List ZipEntry) (j : Jar) : (es.foldl enter j).data = j.data := by
  induction es generalizing j with
  | nil => rfl
  | cons e es ih =>
    rw [List.foldl_cons, ih]
    unfold enter
    split <;> rfl

end Enter

/-- What opening a jar leads to. -/
theorem indexed_of_ofBytes {data : Bytes} {j : Jar} (h : ofBytes data = .ok j) :
    j.data = data ∧ ∃ es, ZipDirectory.find data = .ok es ∧ Indexed j es := by
  unfold ofBytes at h
  split at h
  · cases h
  · split at h
    · cases h
    · rename_i es hes
      cases h
      exact ⟨data_foldl_enter es _, es, hes, (indexed_empty data).foldl_enter es⟩

/-- The names of a jar are those that it finds. -/
theorem Indexed.mem_names_iff {j : Jar} {es : List ZipEntry} (h : Indexed j es) {name : String} :
    name ∈ j.names ↔ ∃ e, j.entry? name = some e := by
  rw [names, List.mem_map]
  constructor
  · intro hname
    obtain ⟨e, he, hname⟩ := hname
    obtain ⟨i, hi⟩ := List.mem_iff_getElem?.mp he
    rw [Array.getElem?_toList] at hi
    refine ⟨e, ?_⟩
    rw [entry?_eq_bind, (h.place name i).mpr ⟨e, hi, hname⟩]
    exact hi
  · intro hentry
    obtain ⟨e, he⟩ := hentry
    have hlast := he
    rw [entry?_eq_bind] at he
    obtain ⟨i, -, hi⟩ := Option.bind_eq_some_iff.mp he
    rw [h.entry name] at hlast
    obtain ⟨-, -, -, hname, -⟩ := lastNamed?_eq_some_iff.mp hlast
    exact ⟨e, Array.mem_toList_iff.mpr (Array.mem_of_getElem? hi), hname⟩

end Jar

/-- The directory of a container has an entry of a name, and this is the last one of them. -/
def Recorded (data : Bytes) (name : String) (e : ZipEntry) : Prop :=
  ∃ before after, ZipDirectory.find data = .ok (before ++ e :: after) ∧ e.name = name ∧
    ∀ e' ∈ after, e'.name ≠ name

section Recorded

variable {data : Bytes} {j : Jar} {name : String} {e : ZipEntry}

theorem recorded_iff : Recorded data name e ↔
    ∃ es, ZipDirectory.find data = .ok es ∧ lastNamed? es name = some e := by
  constructor
  · intro h
    obtain ⟨before, after, hfind, hlast⟩ := h
    exact ⟨_, hfind, lastNamed?_eq_some_iff.mpr ⟨before, after, rfl, hlast⟩⟩
  · intro h
    obtain ⟨es, hfind, hlast⟩ := h
    obtain ⟨before, after, rfl, hnames⟩ := lastNamed?_eq_some_iff.mp hlast
    exact ⟨before, after, hfind, hnames⟩

theorem Recorded.unique {e' : ZipEntry} (h : Recorded data name e) (h' : Recorded data name e') :
    e = e' := by
  obtain ⟨es, hfind, hlast⟩ := recorded_iff.mp h
  obtain ⟨es', hfind', hlast'⟩ := recorded_iff.mp h'
  cases hfind.symm.trans hfind'
  exact Option.some.inj (hlast.symm.trans hlast')

/-- **A jar finds** what the directory says of a name. -/
theorem entry?_eq_some_iff (hj : Jar.ofBytes data = .ok j) :
    j.entry? name = some e ↔ Recorded data name e := by
  obtain ⟨-, es, hes, hindexed⟩ := Jar.indexed_of_ofBytes hj
  rw [hindexed.entry name, recorded_iff, hes]
  simp only [Except.ok.injEq, exists_eq_left']

theorem mem_names_iff (hj : Jar.ofBytes data = .ok j) :
    name ∈ j.names ↔ ∃ e, Recorded data name e := by
  obtain ⟨-, es, hes, hindexed⟩ := Jar.indexed_of_ofBytes hj
  rw [hindexed.mem_names_iff]
  exact exists_congr fun e => entry?_eq_some_iff hj

theorem Recorded.size_lt (h : Recorded data name e) : e.size < UInt64.size := by
  obtain ⟨before, after, hfind, -⟩ := h
  exact ZipDirectory.size_lt_of_find hfind e (List.mem_append_right _ List.mem_cons_self)

end Recorded

end SdkConformance
