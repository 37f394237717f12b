import SdkConformance.Text.Emoji
import SdkConformance.Text.Width

/-!
# How many cells a text takes

Some characters are shown joined to those around them: an emoji and its tone of skin, two letters
as a flag, Arabic lam and alef as one sign. A text is therefore measured from its end, and every
character is told what follows it.

* `Following`: what follows a character, as far as it matters.
* `Following.before`: what a character adds to the width, and what the one before it is told.
* `cellWidth`: the cells of a text.
-/

namespace SdkConformance

/-- The sign at the start of what follows, if a character before it can join it. -/
inductive Joint where
  /-- Nothing to join. -/
  | plain
  /-- A tone of skin. -/
  | tone
  /-- One letter of a flag. -/
  | flagLetter
  /-- Two letters of a flag or more. -/
  | flagLetters
  /-- A picture. -/
  | picture
  /-- A joiner and a picture. -/
  | joinedPicture
  /-- An enclosing keycap, a joiner and a picture. -/
  | joinedKeycap
  /-- One letter of a flag, a joiner and a picture. -/
  | joinedLetter
  /-- Pairs of letters of flags, a joiner and a picture. -/
  | joinedPairs
  /-- A letter and pairs of letters of flags, a joiner and a picture. -/
  | joinedOddLetters
  /-- The end of a flag's tags, a joiner and a picture. -/
  | tagEnd
  /-- Digits among a flag's tags, up to their end, a joiner and a picture. -/
  | tagDigits (count : Nat)
  /-- Letters among a flag's tags, up to their end, a joiner and a picture. -/
  | tagLetters (count : Nat)
  /-- The Kirat Rai vowel sign e. -/
  | kiratE
  /-- The Kirat Rai vowel sign ai. -/
  | kiratAi
  /-- An Arabic alef. -/
  | alef
  /-- The Hebrew letter lamed, after a joiner or not. -/
  | lamed (joined : Bool)
  /-- The Buginese letter ya, after a joiner or not. -/
  | ya (joined : Bool)
  /-- The Buginese vowel sign i, a joiner and the letter ya. -/
  | yaWithVowel
  /-- A Tifinagh consonant, after a joiner or not. -/
  | tifinagh (joined : Bool)
  /-- The Tifinagh consonant joiner and a consonant. -/
  | tifinaghStack
  /-- A Lisu tone letter of the second kind. -/
  | lisuTone
  /-- The Old Turkic letter orkhon i, after a joiner or not. -/
  | orkhonI (joined : Bool)
  /-- A Khmer letter that can be written below another. -/
  | coengLetter
  deriving DecidableEq, Repr

namespace Joint

/-- The forms of the Arabic letter alef. -/
def alefs : List CharRange := [
  ⟨0x622, 0x623⟩, ⟨0x625, 0x625⟩, ⟨0x627, 0x627⟩, ⟨0x671, 0x673⟩, ⟨0x675, 0x675⟩, ⟨0x773, 0x774⟩,
  ⟨0x870, 0x882⟩]

/-- The forms of the Arabic letter lam. -/
def lams : List CharRange := [
  ⟨0x644, 0x644⟩, ⟨0x6B5, 0x6B8⟩, ⟨0x76A, 0x76A⟩, ⟨0x8A6, 0x8A6⟩, ⟨0x8C7, 0x8C7⟩]

/-- The characters that take no cell and yet end a joining of Arabic letters. -/
def opaqueCharacters : List CharRange := [
  ⟨0x605, 0x605⟩, ⟨0x890, 0x891⟩, ⟨0x8E2, 0x8E2⟩, ⟨0x9BE, 0x9BE⟩, ⟨0x9D7, 0x9D7⟩, ⟨0xB3E, 0xB3E⟩,
  ⟨0xB57, 0xB57⟩, ⟨0xBBE, 0xBBE⟩, ⟨0xBD7, 0xBD7⟩, ⟨0xCC0, 0xCC0⟩, ⟨0xCC2, 0xCC2⟩, ⟨0xCC7, 0xCC8⟩,
  ⟨0xCCA, 0xCCB⟩, ⟨0xCD5, 0xCD6⟩, ⟨0xD3E, 0xD3E⟩, ⟨0xD4E, 0xD4E⟩, ⟨0xD57, 0xD57⟩, ⟨0xDCF, 0xDCF⟩,
  ⟨0xDDF, 0xDDF⟩, ⟨0x1160, 0x11FF⟩, ⟨0x1715, 0x1715⟩, ⟨0x1734, 0x1734⟩, ⟨0x180E, 0x180E⟩,
  ⟨0x1B35, 0x1B35⟩, ⟨0x1B3B, 0x1B3B⟩, ⟨0x1B3D, 0x1B3D⟩, ⟨0x1B43, 0x1B44⟩, ⟨0x1BAA, 0x1BAA⟩,
  ⟨0x1BF2, 0x1BF3⟩, ⟨0x200C, 0x200D⟩, ⟨0x2065, 0x2069⟩, ⟨0x302E, 0x302F⟩, ⟨0x3164, 0x3164⟩,
  ⟨0xA8FA, 0xA8FA⟩, ⟨0xA953, 0xA953⟩, ⟨0xA9C0, 0xA9C0⟩, ⟨0xD7B0, 0xD7C6⟩, ⟨0xD7CB, 0xD7FB⟩,
  ⟨0xFFA0, 0xFFA0⟩, ⟨0xFFF0, 0xFFF8⟩, ⟨0x111C0, 0x111C0⟩, ⟨0x111C2, 0x111C3⟩, ⟨0x11235, 0x11235⟩,
  ⟨0x1133E, 0x1133E⟩, ⟨0x1134D, 0x1134D⟩, ⟨0x11357, 0x11357⟩, ⟨0x113B8, 0x113B8⟩,
  ⟨0x113C2, 0x113C2⟩, ⟨0x113C5, 0x113C5⟩, ⟨0x113C7, 0x113C9⟩, ⟨0x113CF, 0x113CF⟩,
  ⟨0x113D1, 0x113D1⟩, ⟨0x114B0, 0x114B0⟩, ⟨0x114BD, 0x114BD⟩, ⟨0x115AF, 0x115AF⟩,
  ⟨0x116B6, 0x116B6⟩, ⟨0x11930, 0x11930⟩, ⟨0x1193D, 0x1193D⟩, ⟨0x1193F, 0x1193F⟩,
  ⟨0x11941, 0x11941⟩, ⟨0x11A84, 0x11A89⟩, ⟨0x11D46, 0x11D46⟩, ⟨0x11F02, 0x11F02⟩,
  ⟨0x11F41, 0x11F41⟩, ⟨0x16FF0, 0x16FF1⟩, ⟨0x1D165, 0x1D166⟩, ⟨0x1D16D, 0x1D172⟩,
  ⟨0xE0000, 0xE0000⟩, ⟨0xE0002, 0xE001F⟩, ⟨0xE0080, 0xE00FF⟩, ⟨0xE01F0, 0xE0FFF⟩]

/-- The Khmer letters that can be written below another. -/
def coengLetters : List CharRange := [
  ⟨0x1780, 0x1782⟩, ⟨0x1784, 0x1787⟩, ⟨0x1789, 0x1793⟩, ⟨0x1795, 0x1798⟩, ⟨0x179B, 0x179D⟩,
  ⟨0x17A0, 0x17A0⟩, ⟨0x17A2, 0x17A2⟩, ⟨0x17A7, 0x17A7⟩, ⟨0x17AB, 0x17AC⟩, ⟨0x17AF, 0x17AF⟩]

/-- The Tifinagh consonants. -/
def tifinaghConsonants : List CharRange := [⟨0x2D31, 0x2D65⟩, ⟨0x2D6F, 0x2D6F⟩]

/-- The marks that may stand between the parts of a sign. -/
def skippedMarks : List CharRange := [
  ⟨0x34F, 0x34F⟩, ⟨0x17B4, 0x17B5⟩, ⟨0x180B, 0x180D⟩, ⟨0x180F, 0x180F⟩, ⟨0xFE00, 0xFE0F⟩,
  ⟨0xE0100, 0xE01EF⟩]

/-- The character that joins those at its sides. -/
def isJoiner (c : Char) : Bool := c.toNat == 0x200D

/-- A quotation mark that a selector can ask to be wide. -/
def isQuotationMark (c : Char) : Bool :=
  CharRange.covers [⟨0x2018, 0x2019⟩, ⟨0x201C, 0x201D⟩] c

/-- A letter in the tags of a flag. -/
def isTagLetter (c : Char) : Bool := 0xE0061 ≤ c.toNat && c.toNat ≤ 0xE007A

/-- A digit in the tags of a flag. -/
def isTagDigit (c : Char) : Bool := 0xE0030 ≤ c.toNat && c.toNat ≤ 0xE0039

/-- Whether the sign is a picture with a joiner before it, or a keycap before both. -/
def isJoinedPicture : Joint → Bool
  | joinedPicture | joinedKeycap => true
  | _ => false

/-- Whether the sign is a letter. -/
def isLetter : Joint → Bool
  | alef | lamed _ | ya _ | yaWithVowel | tifinagh _ | tifinaghStack | lisuTone | orkhonI _
  | coengLetter => true
  | _ => false

/-- Whether marks may stand before the sign that do not part it from another. -/
def skipsMarks (j : Joint) : Bool := j.isLetter && j != alef

/-- The sign with a joiner before it. -/
def joined : Joint → Joint
  | lamed _ => lamed true
  | ya _ => ya true
  | tifinagh _ => tifinagh true
  | orkhonI _ => orkhonI true
  | j => j

/-- The sign that a character is on its own. -/
def ofChar (c : Char) : Joint :=
  if Emoji.isFlagLetter c then flagLetter
  else if Emoji.isModifier c then tone
  else if Emoji.isPicture c then picture
  else if CharRange.covers alefs c then alef
  else if CharRange.covers coengLetters c then coengLetter
  else if CharRange.covers tifinaghConsonants c then tifinagh false
  else match c.toNat with
    | 0x5DC => lamed false
    | 0x1A10 => ya false
    | 0xA4FC | 0xA4FD => lisuTone
    | 0x10C03 => orkhonI false
    | 0x16D67 => kiratE
    | 0x16D68 => kiratAi
    | _ => plain

/-- What a character adds to the width when it joins a letter, and the sign that they give. A
    consonant that is written below another takes back a cell. -/
def joinLetter? (j : Joint) (c : Char) : Option (Int × Joint) :=
  match j, c.toNat with
  | lamed true, 0x5D0 => some (0, plain)
  | coengLetter, 0x17D2 => some (-1, plain)
  | ya true, 0x1A17 => some (0, yaWithVowel)
  | yaWithVowel, 0x1A15 => some (0, plain)
  | tifinagh _, 0x2D7F => some (1, tifinaghStack)
  | orkhonI true, 0x10C32 => some (0, plain)
  | kiratE, 0x16D63 | kiratE, 0x16D69 | kiratAi, 0x16D63 => some (0, plain)
  | kiratE, 0x16D67 => some (0, kiratAi)
  | kiratE, 0x16D68 => some (1, kiratE)
  | tifinagh true, _ => if CharRange.covers tifinaghConsonants c then some (0, plain) else none
  | tifinaghStack, _ => if CharRange.covers tifinaghConsonants c then some (-1, plain) else none
  | lisuTone, n => if 0xA4F8 ≤ n && n ≤ 0xA4FB then some (0, plain) else none
  | alef, _ =>
    if CharRange.covers lams c then some (0, plain)
    else if charWidth c = 0 && !CharRange.covers opaqueCharacters c then some (0, alef)
    else none
  | _, _ => none

/-- What a character adds to the width when it is a tag before other tags of a flag, and the sign
    that they give. The name of a place has up to three digits or up to six characters. -/
def joinTag? (j : Joint) (c : Char) : Option (Int × Joint) :=
  if isTagLetter c then
    match j with
    | tagEnd => some (0, tagLetters 1)
    | tagLetters n => if n < 6 then some (0, tagLetters (n + 1)) else none
    | _ => none
  else if isTagDigit c then
    match j with
    | tagEnd => some (0, tagDigits 1)
    | tagLetters n => if n < 5 then some (0, tagDigits 1) else none
    | tagDigits n => if n < 3 then some (0, tagDigits (n + 1)) else none
    | _ => none
  else if c = '🏴' then
    match j with
    | tagLetters n | tagDigits n => if 3 ≤ n then some (0, picture) else none
    | _ => none
  else none

/-- What a character adds to the width when it joins a picture or a letter of a flag, and the sign
    that they give. -/
def joinPicture? (j : Joint) (c : Char) : Option (Int × Joint) :=
  match j with
  | tone => if Emoji.isModifierBase c then some (0, picture) else
    if isJoiner c then some (0, joinedPicture) else none
  | flagLetter => if Emoji.isFlagLetter c then some (1, flagLetters) else none
  | flagLetters => if Emoji.isFlagLetter c then some (1, flagLetters) else
    if isJoiner c then some (0, joinedPicture) else none
  | picture => if isJoiner c then some (0, joinedPicture) else none
  | joinedPicture =>
    if c.toNat = 0x20E3 then some (0, joinedKeycap)
    else if Emoji.isFlagLetter c then some (1, joinedLetter)
    else if Emoji.isModifier c then some (0, tone)
    else if c.toNat = 0xE007F then some (0, tagEnd)
    else if Emoji.isPicture c then some (0, picture)
    else none
  | joinedLetter => if Emoji.isFlagLetter c then some (-1, joinedPairs) else none
  | joinedPairs => if Emoji.isFlagLetter c then some (3, joinedOddLetters) else
    if isJoiner c then some (0, joinedPicture) else none
  | joinedOddLetters => if Emoji.isFlagLetter c then some (-1, joinedPairs) else
    if isJoiner c then some (0, joinedPicture) else none
  | tagEnd | tagDigits _ | tagLetters _ => joinTag? j c
  | _ => none

/-- What a character adds to the width when it joins what follows, and the sign that they give. -/
def join? (j : Joint) (c : Char) : Option (Int × Joint) :=
  if j.isLetter || j = kiratE || j = kiratAi then joinLetter? j c else joinPicture? j c

end Joint

/-- What follows a character: a sign it can join, and how selectors before that ask the character
    to be shown. -/
structure Following where
  joint : Joint := .plain
  asPicture : Bool := false
  asText : Bool := false
  asWide : Bool := false
  deriving DecidableEq, Repr

namespace Following

/-- The sign and the wishes, less the wish for a picture, which only the next character can meet. -/
def withoutPicture (f : Following) : Following :=
  if !f.asPicture then f
  else if f.joint.isLetter then { f with asPicture := false }
  else {}

/-- The wish that a selector states, before what follows it. -/
def select? (f : Following) (c : Char) : Option Following :=
  let kept : Following := if f.joint.isLetter then f else {}
  match c.toNat with
  | 0xFE0F =>
    some { (if f.joint.isJoinedPicture then f else kept) with asPicture := true }
  | 0xFE0E => some { kept with asText := true }
  | 0xFE01 => some { kept with asWide := true }
  | _ => none

/-- What a character adds to the width that no selector asks for, and what it is to the one before
    it. -/
def joinBefore (f : Following) (c : Char) : Int × Following :=
  if f.joint.skipsMarks && Joint.isJoiner c then (0, { f with joint := f.joint.joined })
  else if f.joint.skipsMarks && CharRange.covers Joint.skippedMarks c then (0, f)
  else
    match if f.asWide then none else f.joint.join? c with
    | some (width, joint) => (width, { joint })
    | none => (charWidth c, { joint := .ofChar c })

/-- What a character adds to the width, and what it is to the one before it. A character that a
    selector turns into a picture takes two cells, one that becomes text a single cell. -/
def before (f : Following) (c : Char) : Int × Following :=
  if f.asPicture && Emoji.isBase c then
    (if f.joint.isJoinedPicture then 0 else 2, { joint := .picture })
  else if c.toNat ≤ 0xA0 then (1, {})
  else
    let f := f.withoutPicture
    match f.select? c with
    | some selected => (0, selected)
    | none =>
      if f.asText then
        if Emoji.isTextBase c then (1, {}) else joinBefore { f with asText := false } c
      else if f.asWide && Joint.isQuotationMark c then (2, {})
      else joinBefore { f with asWide := false } c

end Following

/-- The width of a text, and what it is to a character before it. -/
def measured (cs : List Char) : Int × Following :=
  cs.foldr (fun c (width, following) =>
    let (added, following) := following.before c
    (width + added, following)) (0, {})

/-- The cells of a text. -/
def cellWidth (cs : List Char) : Nat := (measured cs).1.toNat

end SdkConformance
