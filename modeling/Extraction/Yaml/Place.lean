import Extraction.Yaml.Char

/-!
# Extraction.Yaml.Place

A place in a text: what follows it, and where it stands.  Lines and columns count
from zero.
-/

namespace Extraction.Yaml

/-- A place in a text. -/
structure Place where
  /-- The text from here on. -/
  rest : List Char
  /-- The number of characters before. -/
  index : Nat
  line : Nat
  column : Nat

namespace Place

/-- The place before a text. -/
def start (cs : List Char) : Place := ⟨cs, 0, 0, 0⟩

/-- The line and the column after a text that begins at a line and a column. -/
def advance (line column : Nat) : List Char → Nat × Nat
  | [] => (line, column)
  | '\r' :: '\n' :: cs => advance (line + 1) 0 cs
  | c :: cs => if isBreak c then advance (line + 1) 0 cs else advance line (column + 1) cs

/-- The place some characters further on. -/
def skip (p : Place) (n : Nat) : Place :=
  let (line, column) := advance p.line p.column (p.rest.take n)
  ⟨p.rest.drop n, p.index + n, line, column⟩

/-- The characters at the front that are in a class, and the place after them. -/
def span (isIn : Char → Bool) (p : Place) : List Char × Place :=
  let cs := p.rest.takeWhile isIn
  (cs, p.skip cs.length)

/-- The place after the characters at the front that are in a class. -/
def skipWhile (isIn : Char → Bool) (p : Place) : Place := (p.span isIn).2

/-- The line break here, in its normal form, and the place after it. -/
def break? (p : Place) : Option (Char × Place) :=
  match p.rest with
  | '\r' :: '\n' :: _ => some ('\n', p.skip 2)
  | c :: _ => if isBreak c then some (normalBreak c, p.skip 1) else none
  | [] => none

/-- The place after the blanks and the comment that may end a line. -/
def skipComment (p : Place) : Place :=
  match p.rest with
  | '#' :: _ => p.skipWhile fun c => !isBreak c
  | _ => p

end Place

/-- A text that begins with a blank or a break, or is empty. -/
def startsWithGap : List Char → Bool
  | [] => true
  | c :: _ => isGap c

/-- A text that begins with a break, or is empty. -/
def startsWithBreak : List Char → Bool
  | [] => true
  | c :: _ => isBreak c

/-- A text that begins with three characters of a kind and a gap. -/
def startsWithMarker (mark : Char) : List Char → Bool
  | a :: b :: c :: cs => a = mark && b = mark && c = mark && startsWithGap cs
  | _ => false

/-- A place at the beginning of a line where a document starts or ends. -/
def Place.atMarker (p : Place) : Bool :=
  p.column == 0 && (startsWithMarker '-' p.rest || startsWithMarker '.' p.rest)

end Extraction.Yaml
