import SdkConformance.Zip.BitSource

/-!
# Canonical prefix codes

A code gives each symbol a word of one to fifteen bits, or none. The words follow from their
lengths: shorter words come first, and among words of one length those of lower symbols.

* `HuffmanCode.ofLengths`: the code of given lengths;
* `HuffmanCode.isComplete`, `HuffmanCode.isSparse`: whether the words fill the space of words
  exactly, and whether there is nothing but one word of one bit, or not even that;
* `HuffmanCode.decode`: the symbol of the word that bits start with.
-/

namespace SdkConformance

/-- Why bits are no symbols. -/
inductive InflateStop where
  /-- The bits end too early. -/
  | cutOff
  /-- The bits mean nothing, which is known before the last `unread` octets are looked at. -/
  | corrupt (unread : Nat)
  /-- There is more than was asked for. -/
  | enough
  deriving DecidableEq, Repr

/-- A code, by the symbols of each word length. -/
structure HuffmanCode where
  /-- The symbols with words of one bit, of two bits, and so on, each in ascending order. -/
  levels : List (Array Nat)

namespace HuffmanCode

/-- The longest word. -/
def maxLength : Nat := 15

/-- The symbols whose words have `n` bits. -/
def symbolsOfLength (lengths : List Nat) (n : Nat) : Array Nat :=
  ((lengths.zipIdx.filter (·.1 == n)).map (·.2)).toArray

/-- The code in which symbol number `i` has a word of `lengths[i]` bits, none for zero. -/
def ofLengths (lengths : List Nat) : HuffmanCode :=
  ⟨(List.range maxLength).map fun n => symbolsOfLength lengths (n + 1)⟩

/-- How much of the space of `2 ^ 15` words the levels fill, counted from the level `n` bits on. -/
def filled : (n : Nat) → List (Array Nat) → Nat
  | _, [] => 0
  | n, level :: levels => level.size * Nat.pow 2 (maxLength - n) + filled (n + 1) levels

/-- Whether the words fill the space of words exactly. -/
def isComplete (h : HuffmanCode) : Bool := filled 1 h.levels == Nat.pow 2 maxLength

/-- Whether there is at most one word, and that one has a single bit. -/
def isSparse (h : HuffmanCode) : Bool :=
  match h.levels with
  | [] => true
  | level :: levels => level.size ≤ 1 && levels.all (·.isEmpty)

/-- Decodes on: `code` is the word so far, `first` the first word of this length, both doubled. -/
def decodeFrom (code first : Nat) :
    List (Array Nat) → BitSource → Except InflateStop (Nat × BitSource)
  | [], s => .error (.corrupt s.unread)
  | level :: levels, s =>
    match s.bit? with
    | none => .error .cutOff
    | some (b, s) =>
      match level[code + b - first]? with
      | some symbol => .ok (symbol, s)
      | none =>
        if levels.all (·.isEmpty) then .error (.corrupt s.unread)
        else decodeFrom (2 * (code + b)) (2 * (first + level.size)) levels s

/-- The symbol of the word at the start of the bits. -/
def decode (h : HuffmanCode) (s : BitSource) : Except InflateStop (Nat × BitSource) :=
  decodeFrom 0 0 h.levels s

end HuffmanCode

end SdkConformance
