/-!
# Extraction.Decimal.Binary

A floating-point number taken apart: its sign, and its magnitude as a whole number
times a power of two.

* `Magnitude.low`, `Magnitude.high` — the ends of the interval of reals that round to a magnitude.
-/

namespace Extraction.Decimal

/-- A finite magnitude, `significand · 2 ^ exponent`. -/
structure Magnitude where
  significand : Nat
  exponent : Int
  /-- The next smaller magnitude is only half a step away. -/
  narrow : Bool

/-- What the bits of a floating-point number say. -/
inductive Binary where
  | nan
  | infinite (negative : Bool)
  | finite (negative : Bool) (magnitude : Magnitude)

namespace Binary

/-- Reads sign, exponent and significand off the 64 bits. -/
def ofBits (bits : UInt64) : Binary :=
  let negative := bits.toNat / 0x8000000000000000 = 1
  let biased : Nat := bits.toNat / 0x10000000000000 % 0x800
  let fraction : Nat := bits.toNat % 0x10000000000000
  if biased = 2047 then
    if fraction = 0 then .infinite negative else .nan
  else if biased = 0 then
    .finite negative ⟨fraction, -1074, false⟩
  else
    .finite negative
      ⟨0x10000000000000 + fraction, (biased : Int) - 1075, fraction = 0 && biased != 1⟩

def ofFloat (x : Float) : Binary := ofBits x.toBits

end Binary

namespace Magnitude

/-- The magnitude, the lower and the upper end of its rounding interval, all in
quarters of the last place: four, four less one or two, and four and two. -/
def quarters (m : Magnitude) : Nat := 4 * m.significand

def low (m : Magnitude) : Nat := m.quarters - if m.narrow then 1 else 2

def high (m : Magnitude) : Nat := m.quarters + 2

/-- The ends belong to the interval exactly when the significand is even. -/
def closed (m : Magnitude) : Bool := m.significand % 2 == 0

/-- The lower end of the numbers that round to `m` is not above `m`. -/
theorem low_le_quarters (m : Magnitude) : m.low ≤ m.quarters := by
  simp only [low]; omega

/-- The upper end is above `m`. -/
theorem quarters_lt_high (m : Magnitude) : m.quarters < m.high := by
  simp only [high]; omega

end Magnitude

end Extraction.Decimal
