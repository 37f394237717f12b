import SdkConformance.Bytes.Cursor
import SdkConformance.ClassFile.ValueType
import SdkConformance.Text.Utf8

/-!
# Reading descriptors

A descriptor is read octet by octet from its UTF-8 form; positions in faults count octets.

* `ValueType.parse`, `MethodDescriptor.parse`: the types that a whole text describes;
* `fieldType_remaining_lt`: a type takes at least one octet, so a list of parameters ends.
-/

namespace SdkConformance.Descriptor

/-! ## 1. What can be wrong -/

/-- Why a text is no descriptor. -/
inductive Fault where
  /-- There is no octet at all where a method descriptor is expected. -/
  | missing
  /-- A method descriptor starts with something else than a parenthesis. -/
  | noParenthesis
  /-- The text ends where a type is expected. -/
  | unexpectedEnd
  /-- The descriptor is complete before the text ends. -/
  | trailing (index : Nat)
  /-- There are more than 255 brackets in a row. -/
  | tooManyDimensions
  /-- The number of dimensions does not fit an octet. -/
  | dimensions (n : Nat)
  /-- A class name, whose first octet is at `index`, has no terminator. -/
  | unterminated (index : Nat)
  /-- A class name is empty. -/
  | emptyName (index : Nat)
  /-- The octets of a class name are no text. -/
  | invalidName (index : Nat)
  /-- No type starts with this octet. -/
  | invalidCharacter (byte : UInt8) (index : Nat)
  deriving DecidableEq, Repr

/-- What is reported about a text that is no descriptor. An octet is shown as the character of
    its value. -/
def Fault.message : Fault → String
  | .missing => "Out of Bound read would have occurred!"
  | .noParenthesis => "Method descriptor must start with '('"
  | .unexpectedEnd => "Unexpected end of descriptor"
  | .trailing index => s!"Trailing data in descriptor at {index}"
  | .tooManyDimensions => "Array type exceeds 255 dimensions"
  | .dimensions n => s!"Invalid array dimensions - {n}"
  | .unterminated index => s!"Unterminated object type at {index}"
  | .emptyName index => s!"Empty object type name at {index}"
  | .invalidName index => s!"Invalid object type name at {index}"
  | .invalidCharacter byte index =>
    s!"Invalid descriptor character '{Char.ofNat byte.toNat}' at {index}"

/-! ## 2. Letters -/

/-- The octet of an ASCII character. -/
def octet (c : Char) : UInt8 := UInt8.ofNat c.toNat

/-- The primitive type that a letter stands for. -/
def primitive? (b : UInt8) : Option Primitive :=
  if b = octet 'B' then some .byte
  else if b = octet 'C' then some .char
  else if b = octet 'D' then some .double
  else if b = octet 'F' then some .float
  else if b = octet 'I' then some .int
  else if b = octet 'J' then some .long
  else if b = octet 'S' then some .short
  else if b = octet 'Z' then some .boolean
  else none

theorem primitive?_letter (p : Primitive) : primitive? (octet p.letter) = some p := by
  cases p <;> rfl

/-! ## 3. Types -/

/-- The class name up to its terminator; the cursor is behind the letter before it. -/
def objectName (c : Cursor) : Except Fault (String × Cursor) :=
  match c.take? (c.rest.takeWhile (· != octet ';')).length with
  | none => .error (.unterminated c.pos)
  | some (name, c₁) =>
    match c₁.next? with
    | none => .error (.unterminated c.pos)
    | some (_, c₂) =>
      if name.isEmpty then .error (.emptyName c.pos)
      else
        match Utf8.decode? name with
        | none => .error (.invalidName c.pos)
        | some n => .ok (n, c₂)

/-- A primitive type or a class. -/
def elementType (c : Cursor) : Except Fault (ElementType × Cursor) :=
  match c.next? with
  | none => .error .unexpectedEnd
  | some (b, c₁) =>
    match primitive? b with
    | some p => .ok (.primitive p, c₁)
    | none =>
      if b = octet 'L' then (objectName c₁).map fun (n, c₂) => (.object n, c₂)
      else .error (.invalidCharacter b c.pos)

/-- The value type with so many brackets before its element. -/
def withDimensions (n : Nat) (e : ElementType) : Except Fault ValueType :=
  if n = 0 then .ok (.single e)
  else if n < 256 then .ok (.array e (UInt8.ofNat n))
  else .error (.dimensions n)

/-- The type of a field or a parameter. -/
def fieldType (c : Cursor) : Except Fault (ValueType × Cursor) :=
  let n := (c.rest.takeWhile (· == octet '[')).length
  if 255 < n then .error .tooManyDimensions
  else
    match c.advance? n with
    | none => .error .unexpectedEnd
    | some c₁ =>
      match elementType c₁ with
      | .error f => .error f
      | .ok (e, c₂) => (withDimensions n e).map fun t => (t, c₂)

/-! ## 4. A type takes at least one octet -/

theorem objectName_remaining_lt {c c' : Cursor} {n : String} (h : objectName c = .ok (n, c')) :
    c'.remaining < c.remaining := by
  simp only [objectName] at h
  split at h
  · cases h
  · rename_i name c₁ h₁
    split at h
    · cases h
    · rename_i b c₂ h₂
      split at h
      · cases h
      · split at h
        · cases h
        · cases h
          rw [Cursor.take?_eq_some_iff] at h₁
          rw [Cursor.next?_eq_some_iff] at h₂
          have e₁ := congrArg List.length h₁.2.1
          have e₂ := congrArg List.length h₂.1
          rw [← c.length_rest, ← c'.length_rest]
          simp only [List.length_append, List.length_cons] at e₁ e₂
          omega

theorem elementType_remaining_lt {c c' : Cursor} {e : ElementType}
    (h : elementType c = .ok (e, c')) : c'.remaining < c.remaining := by
  simp only [elementType] at h
  split at h
  · cases h
  · rename_i b c₁ h₁
    rw [Cursor.next?_eq_some_iff] at h₁
    have e₁ := congrArg List.length h₁.1
    simp only [List.length_cons, Cursor.length_rest] at e₁
    split at h
    · cases h; omega
    · split at h
      · cases h₂ : objectName c₁ with
        | error f => rw [h₂] at h; cases h
        | ok r =>
          obtain ⟨n, c₂⟩ := r
          rw [h₂] at h
          cases h
          have := objectName_remaining_lt h₂
          show c₂.remaining < c.remaining
          omega
      · cases h

theorem fieldType_remaining_lt {c c' : Cursor} {t : ValueType} (h : fieldType c = .ok (t, c')) :
    c'.remaining < c.remaining := by
  simp only [fieldType] at h
  split at h
  · cases h
  · split at h
    · cases h
    · rename_i c₁ h₁
      split at h
      · cases h
      · rename_i e c₂ h₂
        have hlt := elementType_remaining_lt h₂
        obtain ⟨_, hdata, hpos⟩ := (Cursor.advance?_eq_some_iff ..).1 h₁
        have hle : c₁.remaining ≤ c.remaining := by
          simp only [Cursor.remaining, hdata, hpos]; omega
        generalize withDimensions _ e = w at h
        cases w with
        | error f => cases h
        | ok t =>
          cases h
          exact Nat.lt_of_lt_of_le hlt hle

/-! ## 5. Descriptors -/

/-- The parameters up to the closing parenthesis, after those read before, in reverse. -/
def params (done : List ValueType) (c : Cursor) : Except Fault (List ValueType × Cursor) :=
  match c.next? with
  | none => .error .unexpectedEnd
  | some (b, behind) =>
    if b = octet ')' then .ok (done.reverse, behind)
    else
      match _h : fieldType c with
      | .error f => .error f
      | .ok (t, c') => params (t :: done) c'
termination_by c.remaining
decreasing_by exact fieldType_remaining_lt _h

/-- The result of a method. -/
def returnType (c : Cursor) : Except Fault (ReturnType × Cursor) :=
  match c.next? with
  | none => .error .unexpectedEnd
  | some (b, behind) =>
    if b = octet 'V' then .ok (.void, behind)
    else (fieldType c).map fun (t, c') => (.value t, c')

/-- What was read, if nothing follows it. -/
def complete {α : Type} (r : α × Cursor) : Except Fault α :=
  if r.2.hasMore then .error (.trailing r.2.pos) else .ok r.1

/-- A method descriptor from the cursor to the end of the data. -/
def method (c : Cursor) : Except Fault MethodDescriptor := do
  match c.next? with
  | none => .error .missing
  | some (b, c₁) =>
    if b = octet '(' then
      let (ps, c₂) ← params [] c₁
      let (r, c₃) ← returnType c₂
      complete (⟨ps, r⟩, c₃)
    else .error .noParenthesis

end SdkConformance.Descriptor

namespace SdkConformance

/-- The method types that a text describes. -/
def MethodDescriptor.parse (s : String) : Except Descriptor.Fault MethodDescriptor :=
  Descriptor.method (.ofBytes (Utf8.encode s))

/-- The value type that a text describes. -/
def ValueType.parse (s : String) : Except Descriptor.Fault ValueType :=
  Descriptor.fieldType (.ofBytes (Utf8.encode s)) >>= Descriptor.complete

end SdkConformance
