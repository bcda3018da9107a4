import Extraction.Decimal.Shortest

/-!
# Extraction.Decimal.Layout

How the shortest digits of a floating-point number are laid out as text.  The
formats of this library differ in a few decisions only, gathered in `Layout`.
-/

namespace Extraction.Decimal

/-- The decisions of a format on floating-point numbers. -/
structure Layout where
  /-- The decimal exponents that are written without an exponent part. -/
  positional : Int → Bool
  /-- A whole number keeps a point and a zero. -/
  pointZero : Bool
  /-- A positive exponent carries a plus sign. -/
  plusSign : Bool
  tie : Tie
  nan : String
  infinity : String

/-- Plain text: never an exponent part, whole numbers without a point. -/
def Layout.plain : Layout :=
  ⟨fun _ => true, false, false, .up, "NaN", "inf"⟩

namespace Numeral

/-- The numeral with its point in place and no exponent part. -/
def positional (n : Numeral) (pointZero : Bool) : List Char :=
  let before := n.point.toNat
  if n.point ≤ 0 then ['0', '.'] ++ List.replicate (-n.point).toNat '0' ++ n.digits
  else if n.digits.length ≤ before then
    n.digits ++ List.replicate (before - n.digits.length) '0' ++
      if pointZero then ['.', '0'] else []
  else n.digits.take before ++ ['.'] ++ n.digits.drop before

/-- The numeral with its point after the first digit and an exponent part. -/
def scientific (n : Numeral) (plusSign : Bool) : List Char :=
  let exponent := n.point - 1
  let sign := if exponent < 0 then ['-'] else if plusSign then ['+'] else []
  let fraction := n.digits.drop 1
  n.digits.take 1 ++ (if fraction.isEmpty then [] else '.' :: fraction) ++
    ['e'] ++ sign ++ Decimal.digits exponent.natAbs

end Numeral

/-- The characters of a floating-point number in a format. -/
def Layout.chars (l : Layout) (x : Float) : List Char :=
  match Binary.ofFloat x with
  | .nan => l.nan.toList
  | .infinite negative => (if negative then ['-'] else []) ++ l.infinity.toList
  | .finite negative m =>
    let n := m.shortest l.tie
    (if negative then ['-'] else []) ++
      if l.positional (n.point - 1) then n.positional l.pointZero else n.scientific l.plusSign

def Layout.write (l : Layout) (x : Float) : String := String.ofList (l.chars x)

/-- The plain text of a floating-point number. -/
def plainText (x : Float) : String := Layout.plain.write x

end Extraction.Decimal
