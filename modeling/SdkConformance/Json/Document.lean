import SdkConformance.Json.Token
import SdkConformance.Json.Value

/-!
# JSON documents

A document is one value. It is read token by token with a stack of the arrays and objects that are
still open, so values may be nested to any depth.

* `JsonValue.ofTokens?`, `JsonValue.parse?`: the value of a document.
-/

namespace SdkConformance.JsonValue

/-- An array or an object that is open, with what is complete of it in reverse. -/
inductive Frame where
  | array (done : List JsonValue)
  /-- An object in which the value of `name` is read. -/
  | object (done : List (List UInt16 × JsonValue)) (name : List UInt16)

/-- Reads on inside the open arrays and objects, innermost first. Either a value is expected, or
    `complete` was just read. -/
def readFrom (complete : Option JsonValue) (stack : List Frame) :
    List JsonToken → Option JsonValue
  | [] =>
    match complete, stack with
    | some v, [] => some v
    | _, _ => none
  | t :: ts =>
    match complete with
    | none =>
      match t with
      | .null => readFrom (some .null) stack ts
      | .bool b => readFrom (some (.bool b)) stack ts
      | .number literal => readFrom (some (.number literal)) stack ts
      | .string units => readFrom (some (.string units)) stack ts
      | .openArray =>
        match ts with
        | .closeArray :: ts => readFrom (some (.array [])) stack ts
        | ts => readFrom none (.array [] :: stack) ts
      | .openObject =>
        match ts with
        | .closeObject :: ts => readFrom (some (.object [])) stack ts
        | .string name :: .colon :: ts => readFrom none (.object [] name :: stack) ts
        | _ => none
      | _ => none
    | some v =>
      match stack with
      | [] => none
      | .array done :: stack =>
        match t with
        | .comma => readFrom none (.array (v :: done) :: stack) ts
        | .closeArray => readFrom (some (.array (v :: done).reverse)) stack ts
        | _ => none
      | .object done name :: stack =>
        match t with
        | .comma =>
          match ts with
          | .string next :: .colon :: ts =>
            readFrom none (.object ((name, v) :: done) next :: stack) ts
          | _ => none
        | .closeObject => readFrom (some (.object ((name, v) :: done).reverse)) stack ts
        | _ => none

/-- The value that tokens spell. -/
def ofTokens? (ts : List JsonToken) : Option JsonValue := readFrom none [] ts

/-- The value of a document. -/
def parse? (text : String) : Option JsonValue := (JsonToken.scan text).bind ofTokens?

end SdkConformance.JsonValue
