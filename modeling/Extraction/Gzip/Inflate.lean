import Extraction.Gzip.Code

/-!
# Extraction.Gzip.Inflate

Compressed blocks.  A block holds bytes as they are, or words of two codes: one for
bytes and the lengths of repetitions, one for their distances.  The codes are fixed or
given by the block.
-/

namespace Extraction.Gzip

/-! ## repetitions -/

/-- The smallest length of a repetition for each of its symbols, and the number of bits
to be added to it. -/
def lengthTable : List (Nat × Nat) :=
  [(3, 0), (4, 0), (5, 0), (6, 0), (7, 0), (8, 0), (9, 0), (10, 0), (11, 1), (13, 1), (15, 1),
    (17, 1), (19, 2), (23, 2), (27, 2), (31, 2), (35, 3), (43, 3), (51, 3), (59, 3), (67, 4),
    (83, 4), (99, 4), (115, 4), (131, 5), (163, 5), (195, 5), (227, 5), (258, 0)]

/-- The smallest distance for each symbol, and the number of bits to be added to it. -/
def distanceTable : List (Nat × Nat) :=
  [(1, 0), (2, 0), (3, 0), (4, 0), (5, 1), (7, 1), (9, 2), (13, 2), (17, 3), (25, 3), (33, 4),
    (49, 4), (65, 5), (97, 5), (129, 6), (193, 6), (257, 7), (385, 7), (513, 8), (769, 8),
    (1025, 9), (1537, 9), (2049, 10), (3073, 10), (4097, 11), (6145, 11), (8193, 12),
    (12289, 12), (16385, 13), (24577, 13)]

/-- The value of a symbol, with its added bits. -/
def tableValue? (table : List (Nat × Nat)) (symbol : Nat) (s : Bits) : Option (Nat × Bits) := do
  let (base, width) ← table[symbol]?
  let (added, s) ← Bits.number? width s
  return (base + added, s)

/-- Appends bytes that stand at a distance before the end, one by one, so that bytes
just appended may be repeated. -/
def repeatBytes (distance : Nat) : Nat → ByteArray → ByteArray
  | 0, out => out
  | n + 1, out => repeatBytes distance n (out.push (out[out.size - distance]?.getD 0))

/-! ## blocks of words -/

/-- The two codes of a block. -/
structure Codes where
  literals : Code
  distances : Code

/-- The symbol that ends a block. -/
def endOfBlock : Nat := 256

/-- Reads the words of a block.  `fuel` bounds their number. -/
def words? (codes : Codes) : Nat → Bits → ByteArray → Option (Bits × ByteArray)
  | 0, _, _ => none
  | fuel + 1, s, out => do
    let (symbol, s) ← codes.literals.symbol? s
    if symbol < endOfBlock then words? codes fuel s (out.push (UInt8.ofNat symbol))
    else if symbol = endOfBlock then return (s, out)
    else
      let (length, s) ← tableValue? lengthTable (symbol - endOfBlock - 1) s
      let (symbol, s) ← codes.distances.symbol? s
      let (distance, s) ← tableValue? distanceTable symbol s
      if out.size < distance then none
      else words? codes fuel s (repeatBytes distance length out)

/-- The lengths of the words of the fixed codes. -/
def fixedLengths : List Nat :=
  List.replicate 144 8 ++ List.replicate 112 9 ++ List.replicate 24 7 ++ List.replicate 8 8

def fixedCodes? : Option Codes := do
  return ⟨← Code.ofLengths? fixedLengths, ← Code.ofLengths? (List.replicate 32 5)⟩

/-! ## codes that a block gives -/

/-- The order in which the lengths for the code of lengths are given. -/
def lengthOrder : List Nat := [16, 17, 18, 0, 8, 7, 9, 6, 10, 5, 11, 4, 12, 3, 13, 2, 14, 1, 15]

/-- So many numbers of three bits. -/
def lengthsOfLengths? : Nat → Bits → Option (List Nat × Bits)
  | 0, s => some ([], s)
  | n + 1, s => do
    let (l, s) ← Bits.number? 3 s
    let (ls, s) ← lengthsOfLengths? n s
    return (l :: ls, s)

/-- The lengths for the code of lengths, by symbol. -/
def bySymbol (given : List Nat) : List Nat :=
  (List.range lengthOrder.length).map fun symbol => ((lengthOrder.zip given).lookup symbol).getD 0

/-- Reads lengths until there are enough of them; `lengths` holds those before, the last
one first.  Three symbols stand for repetitions. -/
def lengths? (code : Code) (count : Nat) : Nat → List Nat → Bits → Option (List Nat × Bits)
  | 0, _, _ => none
  | fuel + 1, lengths, s =>
    if lengths.length = count then some (lengths.reverse, s)
    else if count < lengths.length then none
    else do
      let (symbol, s) ← code.symbol? s
      if symbol < 16 then lengths? code count fuel (symbol :: lengths) s
      else if symbol = 16 then
        let (n, s) ← Bits.number? 2 s
        let last ← lengths.head?
        lengths? code count fuel (List.replicate (3 + n) last ++ lengths) s
      else if symbol = 17 then
        let (n, s) ← Bits.number? 3 s
        lengths? code count fuel (List.replicate (3 + n) 0 ++ lengths) s
      else
        let (n, s) ← Bits.number? 7 s
        lengths? code count fuel (List.replicate (11 + n) 0 ++ lengths) s

/-- Reads the codes at the beginning of a block. -/
def codes? (s : Bits) : Option (Codes × Bits) := do
  let (l, s) ← Bits.number? 5 s
  let (d, s) ← Bits.number? 5 s
  let (c, s) ← Bits.number? 4 s
  let literals := 257 + l
  let distances := 1 + d
  if 286 < literals || 30 < distances then none
  else
    let (given, s) ← lengthsOfLengths? (4 + c) s
    let code ← Code.ofLengths? (bySymbol given)
    let (lengths, s) ← lengths? code (literals + distances) (literals + distances + 1) [] s
    let codes : Codes :=
      ⟨← Code.ofLengths? (lengths.take literals), ← Code.ofLengths? (lengths.drop literals)⟩
    return (codes, s)

/-! ## blocks -/

/-- A block of bytes as they are: their number, its complement, and the bytes. -/
def storedBlock? (s : Bits) (out : ByteArray) : Option (Bits × ByteArray) := do
  let (head, bytes) ← takeBytes? 4 s.align.bytes
  let n := littleEndian (head.take 2)
  if n + littleEndian (head.drop 2) ≠ 0xFFFF then none
  else
    let (stored, bytes) ← takeBytes? n bytes
    return (⟨[], bytes⟩, stored.foldl ByteArray.push out)

/-- A block of one of the three kinds. -/
def block? (fuel kind : Nat) (s : Bits) (out : ByteArray) : Option (Bits × ByteArray) :=
  match kind with
  | 0 => storedBlock? s out
  | 1 => do words? (← fixedCodes?) fuel s out
  | 2 => do
    let (codes, s) ← codes? s
    words? codes fuel s out
  | _ => none

/-- Reads blocks up to the one that is marked as the last.  `fuel` bounds the number of
bits. -/
def blocks? : Nat → Bits → ByteArray → Option (Bits × ByteArray)
  | 0, _, _ => none
  | fuel + 1, s, out => do
    let (last, s) ← s.next?
    let (kind, s) ← Bits.number? 2 s
    let (s, out) ← block? fuel kind s out
    if last then return (s, out) else blocks? fuel s out

/-- The bytes that compressed bytes stand for, and the bytes that follow the last block. -/
def inflate? (bytes : List UInt8) : Option (ByteArray × List UInt8) := do
  let (s, out) ← blocks? (8 * bytes.length + 1) ⟨[], bytes⟩ .empty
  return (out, s.bytes)

end Extraction.Gzip
