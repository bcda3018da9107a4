import Extraction.Decimal.Digits
import Extraction.Text.Letter

/-!
# Extraction.Decimal.Reading

Reading a floating-point number from decimal text, rounded correctly: the result
is the floating-point number nearest to the decimal.

* `Decimal.read?` accepts an optional sign, then digits with an optional point and an
  optional exponent part, or one of the words for infinity and for no number;
* `spanDigits_append` — digits are told apart from what follows them.
-/

namespace Extraction.Decimal

/-- The floating-point number nearest to `m · 10 ^ e`.  Exponents far outside the
range are settled by the count of digits, before any power of ten is formed. -/
def nearest (m : Nat) (e : Int) : Float :=
  let count : Int := (digits m).length
  if m = 0 then 0.0
  else if 310 < count + e then 1.0 / 0.0
  else if count + e < -330 then 0.0
  else Float.ofScientific m (e < 0) e.natAbs

/-- A decimal text taken apart: digits before and after the point, and the exponent. -/
structure Parts where
  whole : List Char
  fraction : List Char
  exponent : Int

/-- The digits at the front of a text, and what follows them. -/
def spanDigits (cs : List Char) : List Char × List Char :=
  (cs.takeWhile isDigit, cs.dropWhile isDigit)

/-- Digits are cut off as they stand if no digit follows them. -/
theorem spanDigits_append {ds rest : List Char} (hd : ∀ c ∈ ds, isDigit c = true)
    (hr : ∀ c ∈ rest.head?, isDigit c = false) : spanDigits (ds ++ rest) = (ds, rest) := by
  have hrest : rest.takeWhile isDigit = [] ∧ rest.dropWhile isDigit = rest := by
    cases rest with
    | nil => simp
    | cons c cs => simp [hr c (by simp)]
  simp only [spanDigits]
  rw [List.takeWhile_append_of_pos hd, List.dropWhile_append_of_pos hd, hrest.1, hrest.2,
    List.append_nil]

/-- An exponent part that takes up the whole text: a letter, an optional sign and digits. -/
def exponent? : List Char → Option Int
  | [] => some 0
  | c :: cs =>
    if c = 'e' || c = 'E' then
      let (negative, ds) := match cs with
        | '-' :: ds => (true, ds)
        | '+' :: ds => (false, ds)
        | ds => (false, ds)
      if ds.isEmpty || !ds.all isDigit then none
      else if negative then some (-(value ds : Int)) else some (value ds)
    else none

/-- Takes an unsigned decimal text apart.  At least one digit stands before or after
the point. -/
def parts? (cs : List Char) : Option Parts :=
  let (whole, rest) := spanDigits cs
  let (fraction, rest) := match rest with
    | '.' :: rest => spanDigits rest
    | rest => ([], rest)
  if whole.isEmpty && fraction.isEmpty then none
  else (exponent? rest).map fun e => ⟨whole, fraction, e⟩

/-- The number nearest to a decimal that was taken apart. -/
def Parts.toFloat (p : Parts) : Float :=
  nearest (value (p.whole ++ p.fraction)) (p.exponent - p.fraction.length)

/-- An unsigned number: a decimal, or a word in letters of either case. -/
def readUnsigned? (cs : List Char) : Option Float :=
  let word := cs.map Text.lower
  if word = "inf".toList || word = "infinity".toList then some (1.0 / 0.0)
  else if word = "nan".toList then some (0.0 / 0.0)
  else (parts? cs).map Parts.toFloat

/-- A number with an optional sign. -/
def read? : List Char → Option Float
  | '-' :: cs => (readUnsigned? cs).map fun x => -x
  | '+' :: cs => readUnsigned? cs
  | cs => readUnsigned? cs

end Extraction.Decimal
