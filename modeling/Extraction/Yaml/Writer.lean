import Extraction.Decimal.Layout
import Extraction.Yaml.Style
import Extraction.Yaml.Value

/-!
# Extraction.Yaml.Writer

YAML text of a value.  Collections are nested by two columns of indentation, except
that a sequence inside a mapping stands at the column of its key; empty collections
are pairs of brackets.  A key that takes more than one line, or is too long, is
spelled out with a question mark.
-/

namespace Extraction.Yaml

open Document (Number)

/-- The longest key in bytes that a colon may follow on its line. -/
def maxSimpleKey : Nat := 128

/-! ## scalars -/

/-- Floating-point numbers keep a point, and exponents from -5 to 15 are positional. -/
def floatLayout : Decimal.Layout :=
  ⟨fun e => -5 ≤ e && e ≤ 15, true, false, .even, ".nan", ".inf"⟩

def numberChars : Number → List Char
  | .int n => (Decimal.intText n.toInt).toList
  | .nat n => (Decimal.text n.toNat).toList
  | .float x => floatLayout.chars x

/-- The characters that stand for themselves in a tag. -/
def isWrittenTagChar (c : Char) : Bool := isWord c || ";/?:@&=+$,_.~*'()[]".toList.contains c

/-- A byte by a percent sign and its two hexadecimal digits. -/
def percent (b : UInt8) : List Char := '%' :: Text.Hex.padded Text.Hex.upperDigit 2 b.toNat

/-- A tag with its mark. -/
def tagChars (tag : String) : List Char :=
  '!' :: (bareTag tag).toList.flatMap fun c =>
    if isWrittenTagChar c then [c] else (String.singleton c).toUTF8.toList.flatMap percent

namespace Value

/-- The text of a scalar or an empty collection, inside an indentation. -/
def leaf? (indent : Nat) : Value → Option (List Char)
  | null => some "null".toList
  | boolean b => some (if b then "true".toList else "false".toList)
  | number n => some (numberChars n)
  | string s => some ((Style.of s).write indent s.toList)
  | sequence [] => some ['[', ']']
  | mapping [] => some ['\x7b', '\x7d']
  | tagged t v => (v.leaf? indent).map fun cs => tagChars t ++ ' ' :: cs
  | _ => none

/-- The number of bytes of a value that may stand before a colon on its line. -/
def keyLength? : Value → Option Nat
  | string s => if s.toList.any isBreak then none else some s.utf8ByteSize
  | sequence [] | mapping [] => some 0
  | sequence _ | mapping _ => none
  | tagged t v => v.keyLength?.map fun n => n + 1 + (bareTag t).utf8ByteSize
  | v => (v.leaf? 0).map List.length

/-- A value that may stand before a colon on its line. -/
def isSimpleKey (v : Value) : Bool :=
  match v.keyLength? with
  | some n => n ≤ maxSimpleKey
  | none => false

end Value

/-! ## collections -/

/-- Where a value starts. -/
inductive Start where
  /-- At the beginning of the text. -/
  | document
  /-- After the dash of an item at a column. -/
  | dash (column : Nat)
  /-- After the question mark or the colon of an entry that is spelled out. -/
  | mark (column : Nat)
  /-- After the colon of a key at a column. -/
  | key (column : Nat)

namespace Start

/-- What stands before a value on its line. -/
def gap : Start → List Char
  | document => []
  | _ => [' ']

/-- The indentation of what belongs to the value. -/
def inner : Start → Nat
  | document => 0
  | dash i | mark i | key i => i + 2

/-- The indentation inside a scalar. -/
def scalarIndent : Start → Nat
  | document => 2
  | s => s.inner

/-- The column of the items of a sequence, which may have a tag. -/
def sequenceColumn (start : Start) (tag : Option String) : Nat :=
  match start with
  | key i => i
  | mark i => if tag.isNone then i + 2 else i
  | s => s.inner

/-- What stands before a collection at a column: its tag if it has one, and a new line.
A collection without a tag begins on the line of a dash, a question mark or a colon
that stands alone. -/
def collection (start : Start) (tag : Option String) (column : Nat) : List Char :=
  match tag, start with
  | some t, s => s.gap ++ tagChars t ++ '\n' :: spaces column
  | none, key _ => '\n' :: spaces column
  | none, s => s.gap

/-- What stands before a scalar or an empty collection. -/
def leaf (start : Start) (tag : Option String) : List Char :=
  match tag with
  | some t => start.gap ++ tagChars t ++ [' ']
  | none => start.gap

end Start

/-- A text with a break at its end, if it has none there. -/
def endLine (cs : List Char) : List Char :=
  if cs.getLast?.any isBreak then cs else cs ++ ['\n']

namespace Value

mutual

/-- The lines of a value that starts somewhere; they end with a break. -/
def lines (start : Start) (tag : Option String) : Value → List Char
  | tagged t v => v.lines start (some t)
  | sequence (x :: xs) =>
    let column := start.sequenceColumn tag
    start.collection tag column ++ items column (x :: xs)
  | mapping (e :: es) => start.collection tag start.inner ++ entries start.inner (e :: es)
  | v => endLine (start.leaf tag ++ (v.leaf? start.scalarIndent).getD [])

/-- The items of a sequence at a column, which the first one has reached already. -/
def items (column : Nat) : List Value → List Char
  | [] => []
  | v :: vs =>
    '-' :: v.lines (.dash column) none ++
      if vs.isEmpty then [] else spaces column ++ items column vs

/-- The entries of a mapping at a column, which the first one has reached already. -/
def entries (column : Nat) : List (Value × Value) → List Char
  | [] => []
  | (k, v) :: es =>
    (if k.isSimpleKey then (k.leaf? (column + 2)).getD []
      else '?' :: k.lines (.mark column) none ++ spaces column) ++
    ':' :: v.lines (if k.isSimpleKey then .key column else .mark column) none ++
    if es.isEmpty then [] else spaces column ++ entries column es

end

/-- The YAML text of a value. -/
def write (v : Value) : String := String.ofList (v.lines .document none)

end Value

end Extraction.Yaml
