/-!
# Unicode white space

* `isWhiteSpace`: the characters with the property White_Space;
* `trimChars`, `trimEnd`: texts without the white space at their ends.
-/

namespace SdkConformance

/-- A character with the Unicode property White_Space. -/
def isWhiteSpace (c : Char) : Bool :=
  let n := c.toNat
  (0x09 ≤ n && n ≤ 0x0D) || n == 0x20 || n == 0x85 || n == 0xA0 || n == 0x1680 ||
  (0x2000 ≤ n && n ≤ 0x200A) || n == 0x2028 || n == 0x2029 || n == 0x202F || n == 0x205F ||
  n == 0x3000

/-- The characters without leading white space. -/
def trimStartChars (cs : List Char) : List Char := cs.dropWhile isWhiteSpace

/-- The characters without trailing white space. -/
def trimEndChars (cs : List Char) : List Char := (cs.reverse.dropWhile isWhiteSpace).reverse

/-- The characters without white space at either end. -/
def trimChars (cs : List Char) : List Char := trimEndChars (trimStartChars cs)

/-- The text without trailing white space. -/
def trimEnd (s : String) : String := String.ofList (trimEndChars s.toList)

end SdkConformance
