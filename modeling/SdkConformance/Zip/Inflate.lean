import SdkConformance.Zip.Huffman

/-!
# Inflating

The inverse of the deflate compression: blocks of stored octets, or of literals and of copies from
the octets produced before. A window of `2 ^ 15` octets is looked back into, and before the first
octet it holds zeros.

* `inflate`: what a compressed sequence yields, and how it ends;
* `Inflate.inPieces`: what of it is handed out if the sequence is taken piece by piece.
-/

namespace SdkConformance.Inflate

/-! ## 1. Tables of the format -/

/-- The octets that are looked back into, and that are handed out together. -/
def windowSize : Nat := 32768

/-- The least length of each length symbol from 257 on, with the number of extra bits. -/
def lengthTable : Array (Nat × Nat) :=
  #[(3, 0), (4, 0), (5, 0), (6, 0), (7, 0), (8, 0), (9, 0), (10, 0), (11, 1), (13, 1), (15, 1),
    (17, 1), (19, 2), (23, 2), (27, 2), (31, 2), (35, 3), (43, 3), (51, 3), (59, 3), (67, 4),
    (83, 4), (99, 4), (115, 4), (131, 5), (163, 5), (195, 5), (227, 5), (258, 0)]

/-- The least distance of each distance symbol, with the number of extra bits. -/
def distanceTable : Array (Nat × Nat) :=
  #[(1, 0), (2, 0), (3, 0), (4, 0), (5, 1), (7, 1), (9, 2), (13, 2), (17, 3), (25, 3), (33, 4),
    (49, 4), (65, 5), (97, 5), (129, 6), (193, 6), (257, 7), (385, 7), (513, 8), (769, 8),
    (1025, 9), (1537, 9), (2049, 10), (3073, 10), (4097, 11), (6145, 11), (8193, 12), (12289, 12),
    (16385, 13), (24577, 13)]

/-- The order in which the lengths of the length code are written. -/
def lengthOrder : List Nat := [16, 17, 18, 0, 8, 7, 9, 6, 10, 5, 11, 4, 12, 3, 13, 2, 14, 1, 15]

/-- The lengths of the fixed code for literals and lengths. -/
def fixedLiterals : List Nat :=
  List.replicate 144 8 ++ List.replicate 112 9 ++ List.replicate 24 7 ++ List.replicate 8 8

/-- The lengths of the fixed code for distances. -/
def fixedDistances : List Nat := List.replicate 32 5

/-! ## 2. Steps -/

/-- The number in the next `n` bits. -/
def bits (n : Nat) (s : BitSource) : Except InflateStop (Nat × BitSource) :=
  match s.bits? n with
  | some r => .ok r
  | none => .error .cutOff

/-- Goes on only under a condition. -/
def demand (condition : Bool) (s : BitSource) : Except InflateStop Unit :=
  if condition then .ok () else .error (.corrupt s.unread)

/-- The number that a symbol of a table stands for, with its extra bits. -/
def tabled (table : Array (Nat × Nat)) (symbol : Nat) (s : BitSource) :
    Except InflateStop (Nat × BitSource) :=
  match table[symbol]? with
  | none => .error (.corrupt s.unread)
  | some (base, extra) => (bits extra s).map fun (n, s) => (base + n, s)

/-- The length and the distance of a copy whose length has the given symbol. -/
-- irreducible, so that unfolding `symbols` does not take 257 steps into the difference
@[irreducible] def reference (distances : HuffmanCode) (symbol : Nat) (s : BitSource) :
    Except InflateStop (Nat × Nat × BitSource) := do
  let (n, s) ← tabled lengthTable (symbol - 257) s
  let (symbol, s) ← distances.decode s
  let (d, s) ← tabled distanceTable symbol s
  return (n, d, s)

/-- Repeats `n` octets from `distance` octets back. -/
def copy (distance : Nat) : (n : Nat) → ByteArray → ByteArray
  | 0, out => out
  | n + 1, out =>
    let b : UInt8 :=
      if h : 0 < distance ∧ distance ≤ out.size then out.get (out.size - distance) (by omega)
      else 0
    copy distance n (out.push b)

/-- Appends octets. -/
def append (out : ByteArray) (bs : Bytes) : ByteArray := bs.foldl ByteArray.push out

/-! ## 3. Blocks -/

/-- Literals and copies up to the end of the block, or until more than `limit` octets would be
    there. Every round takes at least one bit, so `fuel` rounds suffice for less bits. -/
def symbols (limit : Nat) (literals distances : HuffmanCode) :
    (fuel : Nat) → BitSource → ByteArray → Except InflateStop BitSource × ByteArray
  | 0, s, out => (.error (.corrupt s.unread), out)
  | fuel + 1, s, out =>
    match literals.decode s with
    | .error stop => (.error stop, out)
    | .ok (symbol, s) =>
      if symbol < 256 then
        if limit ≤ out.size then (.error .enough, out)
        else symbols limit literals distances fuel s (out.push (UInt8.ofNat symbol))
      else if symbol = 256 then (.ok s, out)
      else
        match reference distances symbol s with
        | .error stop => (.error stop, out)
        | .ok (n, d, s) =>
          if limit < out.size + n then (.error .enough, copy d n out)
          else symbols limit literals distances fuel s (copy d n out)

/-- A block of octets as they are: their number, the number turned over, and the octets. -/
def stored (limit : Nat) (s : BitSource) (out : ByteArray) :
    Except InflateStop BitSource × ByteArray :=
  match s.aligned with
  | a :: b :: c :: d :: rest =>
    let n := Bytes.littleEndian [a, b]
    if n + Bytes.littleEndian [c, d] != 0xFFFF then (.error (.corrupt rest.length), out)
    else
      let out := append out (rest.take n)
      if limit < out.size then (.error .enough, out)
      else if holds n rest then (.ok (.ofBytes (rest.drop n)), out)
      else (.error .cutOff, out)
  | _ => (.error .cutOff, out)

/-- The three-bit lengths of the length code, by symbol. -/
def lengthLengths : List Nat → BitSource → List (Nat × Nat) →
    Except InflateStop (List Nat × BitSource)
  | [], s, done => .ok ((List.range 19).map fun i => ((done.find? (·.1 == i)).map (·.2)).getD 0, s)
  | symbol :: order, s, done => do
    let (n, s) ← bits 3 s
    lengthLengths order s ((symbol, n) :: done)

/-- The lengths of the two codes of a block, in the length code; `done` holds those read before,
    in reverse. Every round adds at least one, so `fuel` rounds suffice for as many. -/
def codeLengths (total : Nat) (code : HuffmanCode) :
    (fuel : Nat) → BitSource → List Nat → Except InflateStop (List Nat × BitSource)
  | fuel, s, done =>
    if done.length = total then .ok (done.reverse, s)
    else if total < done.length then .error (.corrupt s.unread)
    else
      match fuel with
      | 0 => .error (.corrupt s.unread)
      | fuel + 1 => do
        let (symbol, s) ← code.decode s
        if symbol < 16 then codeLengths total code fuel s (symbol :: done)
        else if symbol = 16 then
          match done with
          | [] => .error (.corrupt s.unread)
          | last :: _ =>
            let (n, s) ← bits 2 s
            codeLengths total code fuel s (List.replicate (3 + n) last ++ done)
        else if symbol = 17 then
          let (n, s) ← bits 3 s
          codeLengths total code fuel s (List.replicate (3 + n) 0 ++ done)
        else
          let (n, s) ← bits 7 s
          codeLengths total code fuel s (List.replicate (11 + n) 0 ++ done)

/-- The codes for literals and distances that a block brings with it. At most 286 literals and
    lengths and 30 distances have words. The code for the lengths has to be complete; the two
    others may be sparse. -/
def ownCodes (s : BitSource) : Except InflateStop (HuffmanCode × HuffmanCode × BitSource) := do
  let (literalCount, s) ← bits 5 s
  let (distanceCount, s) ← bits 5 s
  let (lengthCount, s) ← bits 4 s
  let literalCount := literalCount + 257
  let distanceCount := distanceCount + 1
  demand (literalCount ≤ 286 && distanceCount ≤ 30) s
  let (lengths, s) ← lengthLengths (lengthOrder.take (lengthCount + 4)) s []
  let lengthCode := HuffmanCode.ofLengths lengths
  demand lengthCode.isComplete s
  let total := literalCount + distanceCount
  let (all, s) ← codeLengths total lengthCode total s []
  let literals := HuffmanCode.ofLengths (all.take literalCount)
  let distances := HuffmanCode.ofLengths (all.drop literalCount)
  demand (literals.isComplete || literals.isSparse) s
  demand (distances.isComplete || distances.isSparse) s
  return (literals, distances, s)

/-- The codes for literals and distances of a block of the given kind. -/
def blockCodes (kind : Nat) (s : BitSource) :
    Except InflateStop (HuffmanCode × HuffmanCode × BitSource) :=
  if kind = 1 then .ok (.ofLengths fixedLiterals, .ofLengths fixedDistances, s)
  else if kind = 2 then ownCodes s
  else .error (.corrupt s.unread)

/-- A block of the given kind. -/
def block (limit fuel kind : Nat) (s : BitSource) (out : ByteArray) :
    Except InflateStop BitSource × ByteArray :=
  if kind = 0 then stored limit s out
  else
    match blockCodes kind s with
    | .error stop => (.error stop, out)
    | .ok (literals, distances, s) => symbols limit literals distances fuel s out

/-- Blocks up to the last one, or until more than `limit` octets would be there. There are less than
    `fuel` bits, and at most `bitCount`. -/
def blocks (limit bitCount : Nat) :
    (fuel : Nat) → BitSource → ByteArray → Except InflateStop Unit × ByteArray
  | 0, s, out => (.error (.corrupt s.unread), out)
  | fuel + 1, s, out =>
    match s.bits? 3 with
    | none => (.error .cutOff, out)
    | some (header, s) =>
      match block limit (bitCount + 1) (header / 2) s out with
      | (.error stop, out) => (.error stop, out)
      | (.ok s, out) =>
        if header % 2 = 1 then (.ok (), out) else blocks limit bitCount fuel s out

end SdkConformance.Inflate

namespace SdkConformance

/-- The octets that a deflate stream yields and how it ends: completely, or for a reason. It ends
    before, or with the copy that goes beyond, as soon as there are more than `limit` octets. -/
def inflate (limit : Nat) (data : Bytes) : Except InflateStop Unit × ByteArray :=
  Inflate.blocks limit (8 * data.length) (8 * data.length + 1) (.ofBytes data) .empty

namespace Inflate

/-- How many octets of a deflate stream are taken together. -/
def pieceSize : Nat := 8192

/-- The octets of a deflate stream that are handed out, of which `size` are wanted, and whether no
    damage follows them. The stream is taken piece by piece, and what a piece yields is handed out
    at its end, or when a window is full and goes on; damage takes what was not yet handed out
    with it. Nothing is read beyond the window in which there are enough octets. -/
def inPieces (size : Nat) (data : Bytes) : Bytes × Bool :=
  let limit := (size - 1) / windowSize * windowSize + windowSize
  let (ending, out) := inflate limit data
  match ending with
  | .ok () | .error .enough => (out.data.toList, true)
  | .error .cutOff => (out.data.toList, false)
  | .error (.corrupt unread) =>
    let earlier := (data.length - unread - 1) / pieceSize * pieceSize
    let pieces := (inflate limit (data.take earlier)).2.size
    let windows := (out.size - 1) / windowSize * windowSize
    (out.data.toList.take (max pieces windows), false)

end Inflate

end SdkConformance
