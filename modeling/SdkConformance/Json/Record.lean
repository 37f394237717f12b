import SdkConformance.Json.Value
import SdkConformance.Text.Digits

/-!
# Records in JSON

A record with named fields is written as an object, or as an array of its fields in order from
which fields at the end may be missing. Members of an object that are no fields do not count, but
no field may occur twice, and names have to be texts.

* `JsonValue.fields?`: the fields of a record;
* `JsonValue.integer?`: the integers, which are numbers without a fraction or an exponent.
-/

namespace SdkConformance.JsonValue

/-! ## 1. Fields -/

/-- The value of a member, if there is one; the outer `none` stands for a repeated name. -/
def member? (name : String) (members : List (String × JsonValue)) : Option (Option JsonValue) :=
  match members.filter (·.1 == name) with
  | [] => some none
  | [(_, v)] => some (some v)
  | _ => none

/-- The members of an object by the texts of their names. -/
def named? (members : List (List UInt16 × JsonValue)) : Option (List (String × JsonValue)) :=
  members.mapM fun (units, v) => (Utf16.decode? units).map fun cs => (String.ofList cs, v)

/-- The values of the fields of a record, in the order of the given names. -/
def fields? (names : List String) : JsonValue → Option (List (Option JsonValue))
  | .array items =>
    if items.length ≤ names.length then
      some (items.map some ++ List.replicate (names.length - items.length) none)
    else none
  | .object members => do
    let ms ← named? members
    names.mapM fun name => member? name ms
  | _ => none

/-- The value of a field that may be missing. -/
def optional? {α : Type} (default : α) (read? : JsonValue → Option α) :
    Option JsonValue → Option α
  | none => some default
  | some v => read? v

/-! ## 2. Integers -/

/-- The integer that a number is written as; zero has no sign. -/
def integer? : JsonValue → Option Int
  | .number ('-' :: ds) =>
    match Digits.decimal? ds with
    | some n => if n = 0 then none else some (-(n : Int))
    | none => none
  | .number ds => (Digits.decimal? ds).map Int.ofNat
  | _ => none

/-- The integers from `low` to `high`. -/
def integerBetween? (low high : Int) (v : JsonValue) : Option Int := do
  let n ← v.integer?
  if low ≤ n ∧ n ≤ high then some n else none

end SdkConformance.JsonValue
