import SdkConformance.ClassFile.ByteReader

/-!
# Reading step by step

The operations of a `ByteReader` as data, so that any sequence of them can be run and looked at.

* `ReadStep.run`: what a step answers at a cursor, and the cursor after it;
* `ReadStep.trace`: the same for a sequence of steps, each going on where the one before stopped.
-/

namespace SdkConformance

/-- An operation on a cursor. -/
inductive ReadStep where
  /-- Move to an absolute position. -/
  | seek (n : Nat)
  /-- Move on. -/
  | skip (n : Nat)
  | octets (n : Nat)
  /-- Read a text in modified UTF-8 of so many octets. -/
  | text (n : Nat)
  | unsigned (width : Nat)
  | signed (width : Nat)
  /-- Look at the next octet without passing it. -/
  | peek
  deriving DecidableEq, Repr

/-- What an operation answers. -/
inductive ReadAnswer where
  | moved
  | octets (bs : Bytes)
  | text (s : String)
  | number (n : Int)
  | octet (b : UInt8)
  deriving DecidableEq, Repr

namespace ReadStep

/-- The reader of a step. -/
def reader : ReadStep → ByteReader ReadAnswer
  | .seek n => do ByteReader.seek n; return .moved
  | .skip n => do ByteReader.skip n; return .moved
  | .octets n => return .octets (← ByteReader.octets n)
  | .text n => return .text (← ByteReader.modifiedUtf8 n)
  | .unsigned width => return .number (← ByteReader.unsigned width)
  | .signed width => return .number (← ByteReader.signed width)
  | .peek => return .octet (← ByteReader.peek)

/-- Performs a step. -/
def run (s : ReadStep) (c : Cursor) : Except Error ReadAnswer × Cursor :=
  match s.reader c with
  | .ok a c' => (.ok a, c')
  | .error e c' => (.error e, c')

/-- Performs steps one after the other, whether they fail or not. -/
def trace : List ReadStep → Cursor → List (Except Error ReadAnswer × Cursor)
  | [], _ => []
  | s :: ss, c =>
    let r := s.run c
    r :: trace ss r.2

end ReadStep

end SdkConformance
