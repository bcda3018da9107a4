import Extraction.Decimal.Binary
import Extraction.Decimal.Digits

/-!
# Extraction.Decimal.Shortest

The fewest digits that still denote a given floating-point number: on the grid of
one-digit decimals, then of two-digit ones, and so on, the two neighbours of the
number are tried against the interval of reals that round to it.  The first grid
with a hit wins, of two hits the nearer, and a `Tie` settles equal distances.

* `isDigit_of_mem_digits_shortest` — the result consists of digits.
-/

namespace Extraction.Decimal

/-- Which of two equally near decimals is taken. -/
inductive Tie where
  | up
  | even
deriving DecidableEq

/-- The decimal `0.digits · 10 ^ point`: `point` digits stand before the decimal point. -/
structure Numeral where
  digits : List Char
  point : Int

/-- A grid of decimals, scaled so that a magnitude and its interval ends are whole
numbers and the grid points are the multiples of `step`. -/
structure Grid where
  value : Nat
  low : Nat
  high : Nat
  step : Nat

namespace Magnitude

/-- The multiples of `10 ^ t` around a magnitude. -/
def grid (m : Magnitude) (t : Int) : Grid :=
  let scale := Nat.pow 2 (m.exponent - 2).toNat * Nat.pow 10 (-t).toNat
  let step := Nat.pow 2 (2 - m.exponent).toNat * Nat.pow 10 t.toNat
  ⟨m.quarters * scale, m.low * scale, m.high * scale, step⟩

/-- The exponent `e` with `10 ^ e ≤ m < 10 ^ (e + 1)`, for a magnitude above zero. -/
def decimalExponent (m : Magnitude) : Int :=
  let g := m.grid 0
  if g.step ≤ g.value then (digits (g.value / g.step)).length - 1
  else
    let k := (digits (g.step / g.value)).length
    if g.step ≤ g.value * Nat.pow 10 (k - 1) then -((k : Int) - 1) else -(k : Int)

end Magnitude

namespace Grid

/-- Does a grid point round to the magnitude? -/
def holds (g : Grid) (closed : Bool) (k : Nat) : Bool :=
  if closed then g.low ≤ k * g.step && k * g.step ≤ g.high
  else g.low < k * g.step && k * g.step < g.high

/-- The nearer of the two neighbours of the magnitude among those that round to it. -/
def pick (g : Grid) (closed : Bool) (tie : Tie) : Option Nat :=
  let below := g.value / g.step
  let above := below + 1
  match g.holds closed below, g.holds closed above with
  | false, false => none
  | true, false => some below
  | false, true => some above
  | true, true =>
    let down := g.value - below * g.step
    let up := above * g.step - g.value
    if down < up then some below
    else if up < down then some above
    else if tie = .up || below % 2 = 1 then some above else some below

end Grid

/-- Drops the zeros at the end of a number that is not zero. -/
def dropZeros : Nat → Nat → Nat
  | 0, n => n
  | fuel + 1, n => if n % 10 = 0 && n != 0 then dropZeros fuel (n / 10) else n

namespace Magnitude

/-- Tries the grids of `count`, `count + 1`, … digits, `fuel` of them. -/
def search (m : Magnitude) (tie : Tie) (e : Int) : Nat → Nat → Numeral
  | 0, _ => ⟨['0'], 1⟩
  | fuel + 1, count =>
    let t := e - count + 1
    match (m.grid t).pick m.closed tie with
    | none => search m tie e fuel (count + 1)
    | some k => ⟨Decimal.digits (dropZeros 20 k), t + (Decimal.digits k).length⟩

/-- The shortest numeral of a magnitude.  Seventeen digits always suffice. -/
def shortest (m : Magnitude) (tie : Tie) : Numeral :=
  if m.significand = 0 then ⟨['0'], 1⟩ else m.search tie m.decimalExponent 17 1

/-- However many digits `search` tries, it answers digits. -/
theorem isDigit_of_mem_digits_search {m : Magnitude} {tie : Tie} {e : Int} {fuel count : Nat}
    {c : Char} (h : c ∈ (m.search tie e fuel count).digits) : isDigit c = true := by
  induction fuel generalizing count with
  | zero => simp [search] at h; subst h; decide
  | succ fuel ih =>
    simp only [search] at h
    split at h
    · exact ih h
    · exact isDigit_of_mem_digits h

/-- `shortest` answers digits. -/
theorem isDigit_of_mem_digits_shortest {m : Magnitude} {tie : Tie} {c : Char}
    (h : c ∈ (m.shortest tie).digits) : isDigit c = true := by
  simp only [shortest] at h
  split at h
  · simp at h; subst h; decide
  · exact isDigit_of_mem_digits_search h

end Magnitude

end Extraction.Decimal
