import SdkConformance.Text.Quoted

/-!
# Slots of a constant pool

A slot holds a text, a reference to the name of a class, or a constant of which only the tag is
kept. Slot zero and the slot behind an eight-octet constant cannot be used.
-/

namespace SdkConformance

/-- What a slot of a constant pool holds. -/
inductive Constant where
  /-- Nothing that can be referred to. -/
  | unusable
  /-- A text. -/
  | utf8 (text : String)
  /-- A class, by the slot of its name. -/
  | classRef (nameIndex : UInt16)
  /-- Any other constant, by its tag. -/
  | other (tag : UInt8)
  deriving DecidableEq, Repr

/-- The form in which a report shows a slot. -/
def Constant.shown : Constant → String
  | .unusable => "Unusable"
  | .utf8 text => s!"Utf8({Quoted.quote text})"
  | .classRef nameIndex => s!"Class({nameIndex})"
  | .other tag => s!"Other({tag})"

end SdkConformance
