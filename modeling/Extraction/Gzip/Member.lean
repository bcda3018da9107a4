import Extraction.Gzip.Checksum
import Extraction.Gzip.Inflate

/-!
# Extraction.Gzip.Member

The member at the front of a compressed file: a header with optional parts, compressed
blocks, and a trailer with the checksum and the length of the content.  What follows
the trailer does not matter.
-/

namespace Extraction.Gzip

/-- The two bytes that a member begins with. -/
def magic : List UInt8 := [0x1F, 0x8B]

/-- Drops bytes up to a zero, and the zero. -/
def afterZero? : List UInt8 → Option (List UInt8)
  | [] => none
  | b :: bs => if b = 0 then some bs else afterZero? bs

/-- Drops a part of the header, if its bit is set. -/
def optionalPart (flags : UInt8) (bit : Nat) (drop : List UInt8 → Option (List UInt8))
    (bs : List UInt8) : Option (List UInt8) :=
  if flags.toNat.testBit bit then drop bs else some bs

/-- Drops a field that begins with its length. -/
def afterExtra? (bs : List UInt8) : Option (List UInt8) := do
  let (n, bs) ← takeBytes? 2 bs
  return (← takeBytes? (littleEndian n) bs).2

/-- Drops the checksum of the header, which are the low bits of the checksum of all
bytes before it. -/
def afterHeaderCheck? (all bs : List UInt8) : Option (List UInt8) := do
  let (check, rest) ← takeBytes? 2 bs
  let before := all.take (all.length - bs.length)
  if littleEndian check = (checksum before).toNat % 0x10000 then return rest else none

/-- The bytes after the header. -/
def afterHeader? (all : List UInt8) : Option (List UInt8) := do
  let (fixed, bs) ← takeBytes? 10 all
  match fixed with
  | id1 :: id2 :: method :: flags :: _ =>
    if [id1, id2] ≠ magic || method ≠ 8 || 0x20 ≤ flags then none
    else
      let bs ← optionalPart flags 2 afterExtra? bs
      let bs ← optionalPart flags 3 afterZero? bs
      let bs ← optionalPart flags 4 afterZero? bs
      optionalPart flags 1 (afterHeaderCheck? all) bs
  | _ => none

/-- The content of the member at the front of a file. -/
def content? (bytes : List UInt8) : Option ByteArray := do
  let bytes ← afterHeader? bytes
  let (out, bytes) ← inflate? bytes
  let (check, bytes) ← takeBytes? 4 bytes
  let (size, _) ← takeBytes? 4 bytes
  if littleEndian check ≠ (checksum out.toList).toNat then none
  else if littleEndian size ≠ out.size % 0x100000000 then none
  else return out

/-- The content of a compressed text file. -/
def text? (bytes : ByteArray) : Option String := do
  String.fromUTF8? (← content? bytes.toList)

end Extraction.Gzip
