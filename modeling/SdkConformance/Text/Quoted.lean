import SdkConformance.Text.Digits
import SdkConformance.Text.Printable

/-!
# Quoted texts in reports

A text in a report stands between double quotes. The quote, the backslash and five controls have
escapes of their own; every other character that cannot be printed on its own, combining marks
included, is given by its number.
-/

namespace SdkConformance.Quoted

/-- The form of one character between the quotes. -/
def escape (c : Char) : String :=
  if c = '\x00' then "\\0"
  else if c = '\t' then "\\t"
  else if c = '\n' then "\\n"
  else if c = '\r' then "\\r"
  else if c = '"' then "\\\""
  else if c = '\\' then "\\\\"
  else if isPrintable c then c.toString
  else "\\u\x7b" ++ Digits.hexLower c.toNat ++ "\x7d"

/-- The text between double quotes. -/
def quote (s : String) : String :=
  "\"" ++ String.join (s.toList.map escape) ++ "\""

end SdkConformance.Quoted
