import SdkConformance.Text.Utf16

/-!
# JSON values

A string is kept by its UTF-16 units, because an escape can put a surrogate anywhere, and a number
as it is written, because its size is not limited. Neither has to make sense unless it is asked
for: `text?` and `integer?` answer what a string or a number stands for.
-/

namespace SdkConformance

/-- A JSON value; the members of an object are in the order of the document. -/
inductive JsonValue where
  | null
  | bool (b : Bool)
  /-- A number as it is written. -/
  | number (literal : List Char)
  /-- A string by its UTF-16 units. -/
  | string (units : List UInt16)
  | array (items : List JsonValue)
  | object (members : List (List UInt16 × JsonValue))

namespace JsonValue

/-! ## 1. Building values -/

/-- The string of a text. -/
def ofText (s : String) : JsonValue := .string (Utf16.encode s.toList)

/-- The number of a natural number. -/
def ofNat (n : Nat) : JsonValue := .number (toString n).toList

/-- The string of a text, or null if there is none. -/
def ofText? : Option String → JsonValue
  | some s => ofText s
  | none => .null

/-- An object by the names of its members. -/
def ofFields (fields : List (String × JsonValue)) : JsonValue :=
  .object (fields.map fun (name, v) => (Utf16.encode name.toList, v))

/-! ## 2. What values stand for -/

/-- The text of a string, if every surrogate in it is part of a pair. -/
def text? : JsonValue → Option String
  | .string units => (Utf16.decode? units).map String.ofList
  | _ => none

/-- A truth value. -/
def bool? : JsonValue → Option Bool
  | .bool b => some b
  | _ => none

/-- The items of an array. -/
def array? : JsonValue → Option (List JsonValue)
  | .array items => some items
  | _ => none

@[simp] theorem text?_ofText (s : String) : (ofText s).text? = some s := by
  simp [text?, ofText, Utf16.decode?_encode]

end JsonValue

end SdkConformance
