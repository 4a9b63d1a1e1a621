import TripRecorder.Transfer.Layout

/-!
# Compressed bodies

A body is sent in a zlib frame: a header of two bytes, blocks, and a checksum. The blocks written
here store their bytes as they are.

## Main definitions

* `Zlib.wrap` — the frame of some bytes
* `Zlib.unwrap?` — the bytes of a frame
-/

namespace TripRecorder.Zlib

/-- The header of a frame with the usual window and level. -/
def header : List UInt8 := [0x78, 0x9c]

/-- A stored block holds fewer bytes than this. -/
def blockBound : Nat := UInt16.size

/-- The two sums of the checksum after some bytes. -/
def checksumParts (bytes : List UInt8) : Nat × Nat :=
  bytes.foldl (fun (a, b) x => ((a + x.toNat) % 65521, (b + a + x.toNat) % 65521)) (1, 0)

/-- The checksum of some bytes. -/
def checksum (bytes : List UInt8) : Nat :=
  let (a, b) := checksumParts bytes
  b * 0x10000 + a

/-- A number of two bytes, the least significant first. -/
def littleEndian (n : Nat) : List UInt8 := [UInt8.ofNat n, UInt8.ofNat (n / 256)]

/-- A stored block: whether it is the last one, its length, the complement of its length, and its
bytes. -/
def block (last : Bool) (bytes : List UInt8) : List UInt8 :=
  (if last then 1 else 0) :: littleEndian bytes.length ++
    littleEndian (blockBound - 1 - bytes.length) ++ bytes

/-- Blocks of which the last is marked; no bytes are one empty block. -/
def blocks : List (List UInt8) → List UInt8
  | [] => block true []
  | [piece] => block true piece
  | piece :: rest => block false piece ++ blocks rest

/-- The frame of some bytes. -/
def wrap (bytes : List UInt8) : List UInt8 :=
  header ++ blocks (inChunks (blockBound - 1) bytes) ++ bigEndian 4 (checksum bytes)

/-- The bytes of stored blocks, and what follows the last of them. -/
def unwrapBlocks? : Nat → List (List UInt8) → List UInt8 → Option (List UInt8 × List UInt8)
  | fuel + 1, done, last :: low :: high :: _ :: _ :: rest =>
    let length := low.toNat + 256 * high.toNat
    let piece := rest.take length
    if piece.length < length then none
    else if last = 1 then some ((piece :: done).reverse.flatten, rest.drop length)
    else if last = 0 then unwrapBlocks? fuel (piece :: done) (rest.drop length)
    else none
  | _, _, _ => none

/-- The bytes of a frame of stored blocks with the right checksum. -/
def unwrap? (frame : List UInt8) : Option (List UInt8) :=
  if frame.take 2 = header then
    match unwrapBlocks? frame.length [] (frame.drop 2) with
    | some (bytes, rest) => if rest = bigEndian 4 (checksum bytes) then some bytes else none
    | none => none
  else none

end TripRecorder.Zlib
