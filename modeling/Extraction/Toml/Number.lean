import Extraction.Decimal.Reading
import Extraction.Text.Hex
import Extraction.Toml.Value

/-!
# Extraction.Toml.Number

Integers and floating-point numbers.  An underscore may stand between two digits; an
integer has to fit 64 bits, and a decimal that is too large is no number.
-/

namespace Extraction.Toml

/-- A text without the underscores in it. -/
def dropUnderscores (cs : List Char) : List Char := cs.filter (· ≠ '_')

/-- Digits of a class with single underscores between them, at the front of a text; what
was read keeps its underscores.  `none` if there is no digit, or an underscore without
digits on both sides. -/
def spanDigits? (isDigit : Char → Bool) : List Char → Option (List Char × List Char)
  | [] => none
  | c :: cs =>
    if !isDigit c then none
    else
      match cs with
      | '_' :: ds => (spanDigits? isDigit ds).map fun r => (c :: '_' :: r.1, r.2)
      | d :: ds =>
        if isDigit d then (spanDigits? isDigit (d :: ds)).map fun r => (c :: r.1, r.2)
        else some ([c], d :: ds)
      | [] => some ([c], [])

/-- A sign at the front of a text. -/
def spanSign : List Char → List Char × List Char
  | '+' :: cs => (['+'], cs)
  | '-' :: cs => (['-'], cs)
  | cs => ([], cs)

/-- The digits of a decimal integer: a zero alone, or digits that do not begin with one. -/
def spanWhole? : List Char → Option (List Char × List Char)
  | '0' :: cs => some (['0'], cs)
  | cs => spanDigits? Decimal.isDigit cs

/-- An integer in the range of 64 bits. -/
def inRange? (n : Int) : Option Value :=
  if -0x8000000000000000 ≤ n && n < 0x8000000000000000 then some (.integer n) else none

/-- The number that digits of a base denote, a power of two. -/
def baseValue (base : Nat) (cs : List Char) : Nat :=
  (dropUnderscores cs).foldl (fun n c => base * n + (Text.Hex.value? c).getD 0) 0

/-- Reads the digits after the mark of a base. -/
def readBase? (base : Nat) (cs : List Char) : Option (Value × List Char) := do
  let (digits, cs) ← spanDigits? (fun c => (Text.Hex.value? c).any (· < base)) cs
  return (← inRange? (baseValue base digits), cs)

/-- The part of a number after a point: digits, the first of which may be a zero. -/
def spanFraction? : List Char → Option (List Char × List Char)
  | '.' :: cs => (spanDigits? Decimal.isDigit cs).map fun r => ('.' :: r.1, r.2)
  | cs => some ([], cs)

/-- An exponent part. -/
def spanExponent? : List Char → Option (List Char × List Char)
  | c :: cs =>
    if c = 'e' || c = 'E' then
      let (sign, cs) := spanSign cs
      (spanDigits? Decimal.isDigit cs).map fun r => (c :: sign ++ r.1, r.2)
    else some ([], c :: cs)
  | [] => some ([], [])

/-- The value of a decimal with its sign. -/
def decimalValue? (sign whole fraction exponent : List Char) : Option Value :=
  if fraction.isEmpty && exponent.isEmpty then
    let n : Int := Decimal.value (dropUnderscores whole)
    inRange? (if sign = ['-'] then -n else n)
  else do
    let x ← Decimal.read? (dropUnderscores (sign ++ whole ++ fraction ++ exponent))
    if x == 1.0 / 0.0 then none else some (.float x)

/-- Reads a word for infinity or for no number after a sign. -/
def readWord? (sign : List Char) (cs : List Char) : Option (Value × List Char) :=
  let negative := sign = ['-']
  match cs with
  | 'i' :: 'n' :: 'f' :: cs => some (.float (if negative then -1.0 / 0.0 else 1.0 / 0.0), cs)
  | 'n' :: 'a' :: 'n' :: cs => some (.float (0.0 / 0.0), cs)
  | _ => none

/-- Reads a number. -/
def readNumber? (cs : List Char) : Option (Value × List Char) :=
  match cs with
  | '0' :: 'x' :: cs => readBase? 16 cs
  | '0' :: 'o' :: cs => readBase? 8 cs
  | '0' :: 'b' :: cs => readBase? 2 cs
  | cs =>
    let (sign, cs) := spanSign cs
    match readWord? sign cs with
    | some r => some r
    | none => do
      let (whole, cs) ← spanWhole? cs
      let (fraction, cs) ← spanFraction? cs
      let (exponent, cs) ← spanExponent? cs
      return (← decimalValue? sign whole fraction exponent, cs)

end Extraction.Toml
