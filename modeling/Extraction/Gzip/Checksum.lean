/-!
# Extraction.Gzip.Checksum

The cyclic redundancy check of 32 bits, for the polynomial `0xEDB88320` in the order
in which the least significant bit comes first.
-/

namespace Extraction.Gzip

/-- One step of the division. -/
def checksumStep (r : UInt32) : UInt32 :=
  if r &&& 1 == 1 then (r >>> 1) ^^^ 0xEDB88320 else r >>> 1

/-- The remainder after one byte more. -/
def checksumByte (r : UInt32) (b : UInt8) : UInt32 :=
  (List.range 8).foldl (fun r _ => checksumStep r) (r ^^^ b.toUInt32)

/-- The checksum of bytes. -/
def checksum (bytes : List UInt8) : UInt32 :=
  bytes.foldl checksumByte 0xFFFFFFFF ^^^ 0xFFFFFFFF

end Extraction.Gzip
