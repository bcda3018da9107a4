import Extraction.Decimal.Reading
import Extraction.Document.Value
import Extraction.Json.Text

/-!
# Extraction.Json.Number

Reading a JSON number.  An integer that fits 64 bits is exact.  Every other number is
approximate: its digits are gathered into a 64-bit significand, the digits that no
longer fit are dropped, and the significand is scaled by a power of ten in
floating-point arithmetic.

* `readNumber` consumes the longest numeral at the front of a text.
-/

namespace Extraction.Json

open Document

/-- The largest significand that `gather` puts together. -/
def maxSignificand : Nat := 0xFFFFFFFFFFFFFFFF

/-- Appends digits to a significand for as long as the result fits, and answers it
with the digits that were left over. -/
def gather (significand : Nat) : List Char → Nat × List Char
  | [] => (significand, [])
  | c :: cs =>
    let next := 10 * significand + Decimal.digitValue c
    if maxSignificand < next then (significand, c :: cs) else gather next cs

/-- The power of ten nearest to `10 ^ e`, for `e` up to 308. -/
def powerOfTen (e : Nat) : Float := Decimal.nearest 1 e

/-- Scales by a power of ten.  A negative exponent beyond the table is worked off in
steps of 308, and the fourth step has reached zero; a positive one, and a result
without a value, are out of range. -/
def scaleSteps : Nat → Float → Int → Option Float
  | 0, x, _ => some x
  | fuel + 1, x, e =>
    if e.natAbs ≤ 308 then
      if 0 ≤ e then
        let y := x * powerOfTen e.natAbs
        if y.isInf then none else some y
      else some (x / powerOfTen e.natAbs)
    else if x == 0.0 then some x
    else if 0 ≤ e then none
    else scaleSteps fuel (x / powerOfTen 308) (e + 308)

/-- The floating-point number `significand · 10 ^ e`, as the reader forms it. -/
def scale (significand : Nat) (e : Int) : Option Float :=
  scaleSteps 5 (UInt64.ofNat significand).toFloat e

/-- A numeral taken apart. -/
structure Numeral where
  negative : Bool
  whole : List Char
  /-- The digits after the point, if there is one. -/
  fraction : Option (List Char)
  /-- The exponent, if there is one. -/
  exponent : Option Int

namespace Numeral

/-- The approximate value of a numeral, from its significand by `scaleSteps`. -/
def approximate (n : Numeral) : Except Error Number :=
  let (whole, dropped) := gather 0 n.whole
  let fraction := n.fraction.getD []
  let (significand, left) := gather whole fraction
  let e : Int := dropped.length - (fraction.length - left.length : Nat) + n.exponent.getD 0
  match scale significand e with
  | none => .error .numberOutOfRange
  | some x => .ok (.float (if n.negative then -x else x))

/-- The value of a numeral: exact for an integer of up to 64 bits, and else `approximate`. A
negative zero, and a negative integer below the signed range, are floating-point numbers. -/
def number (n : Numeral) : Except Error Number :=
  let m := Decimal.value n.whole
  if n.fraction.isSome || n.exponent.isSome || maxSignificand < m then n.approximate
  else if n.negative then
    if m = 0 || 0x8000000000000000 < m then .ok (.float (-(UInt64.ofNat m).toFloat))
    else .ok (.int (Int64.ofInt (-(m : Int))))
  else .ok (Number.ofUInt64 (UInt64.ofNat m))

end Numeral

/-! ## scanning a numeral -/

/-- The error at a place where a digit has to stand. -/
def missing : List Char → Error
  | [] => .unexpectedEnd
  | c :: _ => .unexpected c

/-- The digits before the point: a zero alone, or digits that do not begin with one. -/
def readWhole : List Char → Except Error (List Char × List Char)
  | [] => .error .unexpectedEnd
  | '0' :: cs =>
    match cs with
    | c :: _ => if Decimal.isDigit c then .error (.unexpected c) else .ok (['0'], cs)
    | [] => .ok (['0'], [])
  | c :: cs =>
    if Decimal.isDigit c then .ok (Decimal.spanDigits (c :: cs)) else .error (.unexpected c)

/-- The digits after a point, if a point follows. -/
def readFraction : List Char → Except Error (Option (List Char) × List Char)
  | '.' :: cs =>
    let (ds, rest) := Decimal.spanDigits cs
    if ds.isEmpty then .error (missing rest) else .ok (some ds, rest)
  | cs => .ok (none, cs)

/-- The digits of an exponent. -/
def readExponentDigits (negative : Bool) (cs : List Char) : Except Error (Option Int × List Char) :=
  let (ds, rest) := Decimal.spanDigits cs
  if ds.isEmpty then .error (missing rest)
  else
    let e : Int := Decimal.value ds
    .ok (some (if negative then -e else e), rest)

/-- An exponent, if its letter follows. -/
def readExponent : List Char → Except Error (Option Int × List Char)
  | c :: cs =>
    if c = 'e' || c = 'E' then
      match cs with
      | '-' :: cs => readExponentDigits true cs
      | '+' :: cs => readExponentDigits false cs
      | cs => readExponentDigits false cs
    else .ok (none, c :: cs)
  | [] => .ok (none, [])

/-- Reads the number at the front of a text, by `readWhole`, `readFraction` and `readExponent`;
answers it and what follows. -/
def readNumber (negative : Bool) (cs : List Char) : Except Error (Number × List Char) := do
  let (whole, cs) ← readWhole cs
  let (fraction, cs) ← readFraction cs
  let (exponent, cs) ← readExponent cs
  let n ← Numeral.number ⟨negative, whole, fraction, exponent⟩
  return (n, cs)

end Extraction.Json
