import Extraction.Decimal.Reading
import Extraction.Document.Value
import Extraction.Text.Hex

/-!
# Extraction.Yaml.Scalar

What the text of a plain scalar denotes: null, a boolean, a number, or itself.

* Integers are decimal, or have one of the marks `0x`, `0o` and `0b`; a decimal one with
  a leading zero is a text.
* An integer that fits 128 bits but not 64 is no value of a document; one beyond that is
  read as a floating-point number.
-/

namespace Extraction.Yaml

open Document

def isNullWord (s : String) : Bool := s = "null" || s = "Null" || s = "NULL" || s = "~"

def boolean? (s : String) : Option Bool :=
  if s = "true" || s = "True" || s = "TRUE" then some true
  else if s = "false" || s = "False" || s = "FALSE" then some false
  else none

/-! ## integers -/

/-- The number that digits of a base denote; there is at least one of them. -/
def inBase? (base : Nat) (cs : List Char) : Option Nat :=
  if cs.isEmpty then none
  else cs.foldl (fun acc c => do
    let n ← acc
    let v ← Text.Hex.value? c
    if v < base then some (base * n + v) else none) (some 0)

/-- The number that an integer without a sign denotes. -/
def magnitude? : List Char → Option Nat
  | '0' :: 'x' :: cs => inBase? 16 cs
  | '0' :: 'o' :: cs => inBase? 8 cs
  | '0' :: 'b' :: cs => inBase? 2 cs
  | cs => inBase? 10 cs

/-- A text without its sign. -/
def unsigned : List Char → List Char
  | '+' :: cs => cs
  | '-' :: cs => cs
  | cs => cs

/-- Decimal digits with a leading zero, and perhaps a sign. -/
def isZeroPadded (cs : List Char) : Bool :=
  match unsigned cs with
  | '0' :: c :: cs => (c :: cs).all Decimal.isDigit
  | _ => false

/-- The integer that a text denotes, if it fits 128 bits. -/
def integer? (cs : List Char) : Option Int :=
  if isZeroPadded cs then none
  else
    match magnitude? (unsigned cs) with
    | none => none
    | some m =>
      if cs.head? = some '-' then
        if m ≤ 0x80000000000000000000000000000000 then some (-(m : Int)) else none
      else if m < 0x100000000000000000000000000000000 then some m
      else none

/-! ## floating-point numbers -/

def isInfinityWord (s : String) : Bool := s = ".inf" || s = ".Inf" || s = ".INF"

def isNanWord (s : String) : Bool := s = ".nan" || s = ".NaN" || s = ".NAN"

/-- The finite number that a decimal text denotes. -/
def finite? (cs : List Char) : Option Float :=
  (Decimal.read? cs).bind fun x => if x.isFinite then some x else none

/-- The floating-point number that a text denotes. -/
def float? (s : String) : Option Float :=
  match s.toList with
  | '+' :: cs =>
    if isInfinityWord (String.ofList cs) then some (1.0 / 0.0)
    else if cs.head? = some '+' || cs.head? = some '-' then none
    else finite? cs
  | '-' :: cs =>
    if isInfinityWord (String.ofList cs) then some (-1.0 / 0.0) else finite? ('-' :: cs)
  | cs =>
    if isInfinityWord s then some (1.0 / 0.0)
    else if isNanWord s then some (0.0 / 0.0)
    else finite? cs

/-! ## plain scalars -/

/-- What a plain scalar denotes. -/
inductive Resolved where
  | null
  | boolean (b : Bool)
  | integer (n : Int)
  | float (x : Float)
  | text

/-- What the text of a plain scalar denotes. -/
def resolve (s : String) : Resolved :=
  if s = "" || isNullWord s then .null
  else
    match boolean? s with
    | some b => .boolean b
    | none =>
      match integer? s.toList with
      | some n => .integer n
      | none =>
        if isZeroPadded s.toList then .text
        else
          match float? s with
          | some x => .float x
          | none => .text

/-- A text that stands for itself as a plain scalar. -/
def isPlainText (s : String) : Bool :=
  match resolve s with
  | .text => !isZeroPadded s.toList
  | _ => false

end Extraction.Yaml
