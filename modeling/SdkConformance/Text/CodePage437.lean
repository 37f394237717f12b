import SdkConformance.Bytes.Basic

/-!
# Code page 437

A text of one octet a character: ASCII below 0x80, the table `upper` above.
-/

namespace SdkConformance.CodePage437

/-- The characters of the octets from 0x80 to 0xFF. -/
def upper : Array Char :=
  ("ÇüéâäàåçêëèïîìÄÅÉæÆôöòûùÿÖÜ¢£¥₧ƒáíóúñÑªº¿⌐¬½¼¡«»░▒▓│┤╡╢╖╕╣║╗╝╜╛┐" ++
   "└┴┬├─┼╞╟╚╔╩╦╠═╬╧╨╤╥╙╘╒╓╫╪┘┌█▄▌▐▀αßΓπΣσµτΦΘΩδ∞φε∩≡±≥≤⌠⌡÷≈°∙·√ⁿ²■\u00A0").toList.toArray

/-- The character of an octet. -/
def character (b : UInt8) : Char :=
  if b < 0x80 then Char.ofNat b.toNat else upper.getD (b.toNat - 0x80) '?'

/-- The text of octets. -/
def decode (bs : Bytes) : String := String.ofList (bs.map character)

end SdkConformance.CodePage437
