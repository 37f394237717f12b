import SdkConformance.Text.Digits
import SdkConformance.Text.Utf16

/-!
# The tokens of a JSON document

A document is a row of marks, words, numbers and strings with blanks between them. No two tokens
that need a mark between them are ever joined by the grammar, so a number or a word may be taken
as far as its characters go before it is tested.

* `JsonToken.scan`: the tokens of a text, if it consists of tokens.
-/

namespace SdkConformance

/-- A token of a document. -/
inductive JsonToken where
  | openArray
  | closeArray
  | openObject
  | closeObject
  | colon
  | comma
  | null
  | bool (b : Bool)
  | number (literal : List Char)
  | string (units : List UInt16)
  deriving DecidableEq, Repr

namespace JsonToken

/-! ## 1. Numbers -/

/-- A character that numbers are written with. -/
def isNumberChar (c : Char) : Bool :=
  Digits.isDigit c || c == '-' || c == '+' || c == '.' || c == 'e' || c == 'E'

/-- Nothing, or an exponent. -/
def isExponent : List Char → Bool
  | [] => true
  | e :: sign :: ds =>
    (e == 'e' || e == 'E') &&
    (if sign == '+' || sign == '-' then (Digits.decimal? ds).isSome
      else (Digits.decimal? (sign :: ds)).isSome)
  | _ => false

/-- What may follow the whole part of a number: a fraction, an exponent, both or none. -/
def isTail : List Char → Bool
  | '.' :: cs =>
    !(cs.takeWhile Digits.isDigit).isEmpty && isExponent (cs.dropWhile Digits.isDigit)
  | cs => isExponent cs

/-- A number without sign; its whole part is zero or does not start with zero. -/
def isMagnitude : List Char → Bool
  | '0' :: cs => isTail cs
  | c :: cs => Digits.isDigit c && isTail (cs.dropWhile Digits.isDigit)
  | [] => false

/-- A number of the format. -/
def isNumber : List Char → Bool
  | '-' :: cs => isMagnitude cs
  | cs => isMagnitude cs

/-! ## 2. Strings -/

/-- The value of a hexadecimal digit. -/
def hexDigit? (c : Char) : Option Nat :=
  if Digits.isDigit c then some (c.toNat - '0'.toNat)
  else if 'a' ≤ c && c ≤ 'f' then some (c.toNat - 'a'.toNat + 10)
  else if 'A' ≤ c && c ≤ 'F' then some (c.toNat - 'A'.toNat + 10)
  else none

/-- The unit of four hexadecimal digits. -/
def hexUnit? (a b c d : Char) : Option UInt16 := do
  let a ← hexDigit? a
  let b ← hexDigit? b
  let c ← hexDigit? c
  let d ← hexDigit? d
  return UInt16.ofNat (((a * 16 + b) * 16 + c) * 16 + d)

/-- The unit that a letter stands for behind a backslash. -/
def escaped? (c : Char) : Option UInt16 :=
  if c = '"' then some 0x22
  else if c = '\\' then some 0x5C
  else if c = '/' then some 0x2F
  else if c = 'b' then some 0x08
  else if c = 'f' then some 0x0C
  else if c = 'n' then some 0x0A
  else if c = 'r' then some 0x0D
  else if c = 't' then some 0x09
  else none

/-- The units of a string up to its closing quote, after those read before, in reverse, and the
    characters behind the quote. -/
def stringFrom (done : List UInt16) : List Char → Option (List UInt16 × List Char)
  | [] => none
  | c :: r =>
    if c = '"' then some (done.reverse, r)
    else if c = '\\' then
      match r with
      | [] => none
      | e :: r =>
        if e = 'u' then
          match r with
          | a :: b :: c :: d :: r =>
            match hexUnit? a b c d with
            | some u => stringFrom (u :: done) r
            | none => none
          | _ => none
        else
          match escaped? e with
          | some u => stringFrom (u :: done) r
          | none => none
    else if c.toNat < 0x20 then none
    else stringFrom ((Utf16.ofChar c).reverse ++ done) r

theorem length_lt_of_stringFrom {done us : List UInt16} {cs r : List Char}
    (h : stringFrom done cs = some (us, r)) : r.length < cs.length := by
  induction hn : cs.length using Nat.strongRecOn generalizing done cs with
  | _ n ih =>
    cases cs with
    | nil => cases h
    | cons c t =>
      simp only [List.length_cons] at hn
      rw [stringFrom.eq_def] at h
      simp only at h
      split at h
      · cases h; omega
      · split at h
        · split at h
          · cases h
          · rename_i e t₁
            simp only [List.length_cons] at hn
            split at h
            · split at h
              · rename_i a b d e t₂
                simp only [List.length_cons] at hn
                split at h
                · have := ih t₂.length (by omega) h rfl
                  omega
                · cases h
              · cases h
            · split at h
              · have := ih t₁.length (by omega) h rfl
                omega
              · cases h
        · split at h
          · cases h
          · have := ih t.length (by omega) h rfl
            omega

/-! ## 3. Tokens -/

/-- White space between tokens. -/
def isBlank (c : Char) : Bool := c == ' ' || c == '\n' || c == '\t' || c == '\r'

/-- The token of a mark. -/
def mark? (c : Char) : Option JsonToken :=
  if c = '[' then some .openArray
  else if c = ']' then some .closeArray
  else if c = '\x7b' then some .openObject
  else if c = '\x7d' then some .closeObject
  else if c = ':' then some .colon
  else if c = ',' then some .comma
  else none

/-- A character of a word. -/
def isWordChar (c : Char) : Bool := 'a' ≤ c && c ≤ 'z'

/-- Whether a character goes on with the word or the number that starts with `first`. -/
def belongsTo (first c : Char) : Bool := if isWordChar first then isWordChar c else isNumberChar c

/-- The token of a word or a number. -/
def literal? (cs : List Char) : Option JsonToken :=
  if cs = "null".toList then some .null
  else if cs = "true".toList then some (.bool true)
  else if cs = "false".toList then some (.bool false)
  else if isNumber cs then some (.number cs)
  else none

/-- The tokens of a text, after those found before, in reverse. -/
def scanFrom (done : List JsonToken) (text : List Char) : Option (List JsonToken) :=
  match text with
  | [] => some done.reverse
  | c :: r =>
    if isBlank c then scanFrom done r
    else
      match mark? c with
      | some t => scanFrom (t :: done) r
      | none =>
        if c = '"' then
          match _h : stringFrom [] r with
          | some (us, r') => scanFrom (.string us :: done) r'
          | none => none
        else
          match literal? (c :: r.takeWhile (belongsTo c)) with
          | some t => scanFrom (t :: done) (r.dropWhile (belongsTo c))
          | none => none
termination_by text.length
decreasing_by
  · simp
  · simp
  · have := length_lt_of_stringFrom _h
    simp only [List.length_cons]; omega
  · have := (List.dropWhile_sublist (belongsTo c) (l := r)).length_le
    simp only [List.length_cons]; omega

/-- The tokens of a text, if it consists of tokens. -/
def scan (text : String) : Option (List JsonToken) := scanFrom [] text.toList

end JsonToken

end SdkConformance
