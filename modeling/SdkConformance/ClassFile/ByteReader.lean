import SdkConformance.Error

/-!
# Reading class files octet by octet

A `ByteReader` reads a value behind a cursor and leaves the cursor where it stopped, also when it
fails: running out of data moves nothing, while a text that cannot be decoded has been passed.
-/

namespace SdkConformance

/-- A computation that reads on behind a cursor. -/
abbrev ByteReader := EStateM Error Cursor

namespace ByteReader

/-- Reads with an operation of the cursor; where that has no answer, the data is too short. -/
def ofCursor {α : Type} (read? : Cursor → Option (α × Cursor)) : ByteReader α := fun c =>
  match read? c with
  | some (a, c') => .ok a c'
  | none => .error .outOfBounds c

/-- The next `n` octets. -/
def octets (n : Nat) : ByteReader Bytes := ofCursor (·.take? n)

/-- Passes `n` octets. -/
def skip (n : Nat) : ByteReader Unit := ofCursor fun c => (c.advance? n).map fun c' => ((), c')

/-- Moves to the absolute position `n`; the end of the data is allowed. -/
def seek (n : Nat) : ByteReader Unit := ofCursor fun c => (c.seek? n).map fun c' => ((), c')

/-- The octet under the cursor, which stays where it is. -/
def peek : ByteReader UInt8 := ofCursor fun c => c.peek?.map fun b => (b, c)

/-- The unsigned number in `width` octets, most significant first. -/
def unsigned (width : Nat) : ByteReader Nat := ofCursor (·.unsigned? width)

/-- The number in two's complement in `width` octets, most significant first. -/
def signed (width : Nat) : ByteReader Int := ofCursor (·.signed? width)

/-- A number of one octet. -/
def u8 : ByteReader UInt8 := ofCursor (·.next?)

/-- A number of two octets. -/
def u16 : ByteReader UInt16 := do return UInt16.ofNat (← unsigned 2)

/-- A number of four octets. -/
def u32 : ByteReader UInt32 := do return UInt32.ofNat (← unsigned 4)

/-- A text in modified UTF-8 of `n` octets. -/
def modifiedUtf8 (n : Nat) : ByteReader String := do
  match ModifiedUtf8.decode (← octets n) with
  | .ok s => return s
  | .error fault => throw (.malformed (.undecodable fault))

/-- What a reader answers behind a cursor, without the cursor. -/
def answer {α : Type} (r : ByteReader α) (c : Cursor) : Except Error α :=
  match r c with
  | .ok a _ => .ok a
  | .error e _ => .error e

end ByteReader

end SdkConformance
