/-!
# Extraction.Gzip.Bits

Bytes read bit by bit, the least significant bit of a byte first.
-/

namespace Extraction.Gzip

/-- What is left of a text of bits. -/
structure Bits where
  /-- The bits left of the byte that was begun. -/
  begun : List Bool
  /-- The bytes after it. -/
  bytes : List UInt8

namespace Bits

/-- The bits of a byte, the least significant first. -/
def ofByte (b : UInt8) : List Bool := (List.range 8).map fun i => b.toNat.testBit i

/-- The next bit. -/
def next? (s : Bits) : Option (Bool × Bits) :=
  match s.begun with
  | b :: bs => some (b, { s with begun := bs })
  | [] =>
    match s.bytes with
    | [] => none
    | byte :: bytes =>
      match ofByte byte with
      | b :: bs => some (b, ⟨bs, bytes⟩)
      | [] => none

/-- A number of so many bits, the least significant first. -/
def number? : Nat → Bits → Option (Nat × Bits)
  | 0, s => some (0, s)
  | n + 1, s => do
    let (b, s) ← s.next?
    let (m, s) ← number? n s
    return (2 * m + b.toNat, s)

/-- Drops what is left of the byte that was begun. -/
def align (s : Bits) : Bits := { s with begun := [] }

end Bits

/-- The number that bytes denote, the least significant first. -/
def littleEndian : List UInt8 → Nat
  | [] => 0
  | b :: bs => b.toNat + 256 * littleEndian bs

/-- So many bytes at the front, with what follows them. -/
def takeBytes? (n : Nat) (bs : List UInt8) : Option (List UInt8 × List UInt8) :=
  if (bs.take n).length = n then some (bs.take n, bs.drop n) else none

end Extraction.Gzip
