import SdkConformance.Json.Value
import SdkConformance.Text.Digits

/-!
# Printing JSON

Every item and every member has a line of its own, two spaces further in than its brackets. An
empty array or object is a pair of brackets. Only the quote, the backslash and control characters
below U+0020 are escaped, and surrogates that stand alone.

* `JsonValue.render`: the document of a value.
-/

namespace SdkConformance.JsonValue

/-! ## 1. Strings -/

/-- The escape that names a unit by four digits. -/
def numbered (u : UInt16) : String :=
  let ds := Nat.toDigits 16 u.toNat
  "\\u" ++ String.ofList (List.replicate (4 - ds.length) '0' ++ ds)

/-- A unit that is no surrogate, between the quotes. -/
def unitText (u : UInt16) : String :=
  if u = 0x22 then "\\\""
  else if u = 0x5C then "\\\\"
  else if u = 0x08 then "\\b"
  else if u = 0x09 then "\\t"
  else if u = 0x0A then "\\n"
  else if u = 0x0C then "\\f"
  else if u = 0x0D then "\\r"
  else if u < 0x20 then numbered u
  else (Char.ofNat u.toNat).toString

/-- Writes what stands between the quotes behind `out`. -/
def writeUnits (out : String) : List UInt16 → String
  | [] => out
  | u :: us =>
    if Utf16.isHigh u then
      match us with
      | [] => out ++ numbered u
      | v :: vs =>
        if Utf16.isLow v then writeUnits (out.push (Utf16.ofPair u v)) vs
        else writeUnits (out ++ numbered u) (v :: vs)
    else if Utf16.isLow u then writeUnits (out ++ numbered u) us
    else writeUnits (out ++ unitText u) us

/-- Writes a string behind `out`. -/
def writeString (out : String) (units : List UInt16) : String :=
  (writeUnits (out.push '"') units).push '"'

/-! ## 2. Values -/

/-- Starts a line that is `depth` steps inside. -/
def writeLine (out : String) (depth : Nat) : String :=
  out ++ "\n" ++ String.ofList (List.replicate (2 * depth) ' ')

mutual

/-- Writes a value behind `out`; its brackets are `depth` steps inside. -/
def write (depth : Nat) (out : String) : JsonValue → String
  | .null => out ++ "null"
  | .bool true => out ++ "true"
  | .bool false => out ++ "false"
  | .number literal => out ++ String.ofList literal
  | .string units => writeString out units
  | .array [] => out ++ "[]"
  | .array (v :: vs) =>
    let out := write (depth + 1) (writeLine (out.push '[') (depth + 1)) v
    (writeLine (writeItems (depth + 1) out vs) depth).push ']'
  | .object [] => out ++ "\x7b\x7d"
  | .object ((name, v) :: ms) =>
    let out := writeString (writeLine (out.push '\x7b') (depth + 1)) name
    let out := write (depth + 1) (out ++ ": ") v
    (writeLine (writeMembers (depth + 1) out ms) depth).push '\x7d'

/-- Writes the items after the first one. -/
def writeItems (depth : Nat) (out : String) : List JsonValue → String
  | [] => out
  | v :: vs => writeItems depth (write depth (writeLine (out.push ',') depth) v) vs

/-- Writes the members after the first one. -/
def writeMembers (depth : Nat) (out : String) : List (List UInt16 × JsonValue) → String
  | [] => out
  | (name, v) :: ms =>
    let out := writeString (writeLine (out.push ',') depth) name
    writeMembers depth (write depth (out ++ ": ") v) ms

end

/-- The document of a value. -/
def render (v : JsonValue) : String := write 0 "" v

end SdkConformance.JsonValue
