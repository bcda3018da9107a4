import Extraction.Decimal.Layout
import Extraction.Document.Value
import Extraction.Json.Text

/-!
# Extraction.Json.Writer

JSON text of a document, on one line or with two spaces of indentation a level.
Entries come in their stored order; a floating-point number without a value is
written as null.
-/

namespace Extraction.Json

open Document

/-- The two layouts of JSON text. -/
inductive Style where
  | compact
  | pretty
deriving DecidableEq

/-- Floating-point numbers keep a point, exponents from -5 to 15 are positional, and a
positive exponent carries its sign. -/
def floatLayout : Decimal.Layout :=
  ⟨fun e => -5 ≤ e && e ≤ 15, true, true, .even, "null", "null"⟩

/-- The text of a floating-point number in `floatLayout`, or `null` where it has none. -/
def floatChars (x : Float) : List Char :=
  match Decimal.Binary.ofFloat x with
  | .finite _ _ => floatLayout.chars x
  | _ => "null".toList

def numberChars : Number → List Char
  | .int n => (Decimal.intText n.toInt).toList
  | .nat n => (Decimal.text n.toNat).toList
  | .float x => floatChars x

namespace Style

/-- What stands before an item, and before the closing bracket, at a level. -/
def lineBreak : Style → Nat → List Char
  | compact, _ => []
  | pretty, level => '\n' :: List.replicate (2 * level) ' '

/-- What stands between a key and its value. -/
def colon : Style → List Char
  | compact => [':']
  | pretty => [':', ' ']

mutual

/-- The text of a value whose surrounding container is at a level. -/
def chars (s : Style) (level : Nat) : Value → List Char
  | .object [] => ['\x7b', '\x7d']
  | .object (e :: es) =>
    '\x7b' :: s.entries (level + 1) (e :: es) ++ s.lineBreak level ++ ['\x7d']
  | .array [] => ['[', ']']
  | .array (x :: xs) => '[' :: s.items (level + 1) (x :: xs) ++ s.lineBreak level ++ [']']
  | .string t => quoted t
  | .number n => numberChars n
  | .boolean true => ['t', 'r', 'u', 'e']
  | .boolean false => ['f', 'a', 'l', 's', 'e']
  | .null => ['n', 'u', 'l', 'l']

/-- Entries with a comma between two of them, each on its own line if `lineBreak` says so. -/
def entries (s : Style) (level : Nat) : List (String × Value) → List Char
  | [] => []
  | [(k, v)] => s.lineBreak level ++ quoted k ++ s.colon ++ s.chars level v
  | (k, v) :: e :: es =>
    s.lineBreak level ++ quoted k ++ s.colon ++ s.chars level v ++ ',' :: s.entries level (e :: es)

/-- Items with a comma between two of them, laid out as `entries` are. -/
def items (s : Style) (level : Nat) : List Value → List Char
  | [] => []
  | [v] => s.lineBreak level ++ s.chars level v
  | v :: w :: vs => s.lineBreak level ++ s.chars level v ++ ',' :: s.items level (w :: vs)

end

end Style

/-- The JSON text of a document: its `chars` at the outermost level. -/
def write (s : Style) (v : Value) : String := String.ofList (s.chars 0 v)

end Extraction.Json
