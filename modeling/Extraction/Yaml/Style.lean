import Extraction.Text.Hex
import Extraction.Yaml.Char
import Extraction.Yaml.Scalar

/-!
# Extraction.Yaml.Style

How a string is written as a scalar.  A text with a line feed is literal; a text that
would be read as something else as a plain scalar is in single marks; every other text
is plain.  Where a text does not allow its style, single marks stand in for plain, and
double marks, which allow every text, for the others.
-/

namespace Extraction.Yaml

/-- The styles of scalars that are written. -/
inductive Style where
  | plain
  | single
  | double
  | literal
deriving DecidableEq

/-! ## what a text allows -/

/-- The characters that need no escape. -/
def isPrintable (c : Char) : Bool :=
  let n := c.toNat
  n == 0x0A || (0x20 ≤ n && n ≤ 0x7E) || (0xA0 ≤ n && n ≤ 0xD7FF) ||
    (0xE000 ≤ n && n ≤ 0xFFFD && n != 0xFEFF) || 0x10000 ≤ n

/-- Two neighbours of which the first and the second are in a class each. -/
def hasPair (isFirst isSecond : Char → Bool) : List Char → Bool
  | c :: d :: cs => (isFirst c && isSecond d) || hasPair isFirst isSecond (d :: cs)
  | _ => false

def isSpace (c : Char) : Bool := c = ' '

/-- A text that begins with the marker of a document. -/
def startsLikeMarker : List Char → Bool
  | a :: b :: c :: _ => a = b && b = c && (a = '-' || a = '.')
  | _ => false

/-- The first character of a text keeps it from being plain. -/
def startsWithIndicator : List Char → Bool
  | [] => false
  | c :: cs =>
    if c = '-' || c = '?' || c = ':' then cs.head?.all isGap else isIndicator c

/-- A colon before a gap, or a hash sign after one. -/
def hasInnerIndicator (cs : List Char) : Bool :=
  hasPair (· = ':') isGap cs || cs.getLast? = some ':' || hasPair isGap (· = '#') cs

/-- A text that allows single marks. -/
def allowsSingle (cs : List Char) : Bool :=
  cs.all isPrintable && !hasPair isSpace isBreak cs && !hasPair isBreak isSpace cs

/-- A text that allows the plain style. -/
def allowsPlain (cs : List Char) : Bool :=
  cs.all isPrintable && !cs.any isBreak && !cs.head?.any isSpace && !cs.getLast?.any isSpace &&
    !startsLikeMarker cs && !startsWithIndicator cs && !hasInnerIndicator cs

/-- A text that allows the literal style. -/
def allowsLiteral (cs : List Char) : Bool :=
  cs.all isPrintable && !hasPair isSpace isBreak cs && !cs.getLast?.any isSpace

/-- The style in which a text is written. -/
def Style.of (s : String) : Style :=
  let cs := s.toList
  if cs.contains '\n' then if allowsLiteral cs then literal else double
  else if isPlainText s && allowsPlain cs then plain
  else if allowsSingle cs then single
  else double

/-! ## written forms -/

/-- The spaces before a line. -/
def spaces (n : Nat) : List Char := List.replicate n ' '

/-- The text between single marks.  After a break the indentation is written. -/
def singleBody (indent : Nat) (afterBreak : Bool) : List Char → List Char
  | [] => if afterBreak then spaces indent else []
  | c :: cs =>
    if isBreak c then c :: singleBody indent true cs
    else
      (if afterBreak then spaces indent else []) ++ (if c = '\'' then ['\'', '\''] else [c]) ++
        singleBody indent false cs

/-- The letter that stands for a character after a backslash. -/
def escapeLetter? (c : Char) : Option Char :=
  if c = '\x00' then some '0'
  else if c = '\x07' then some 'a'
  else if c = '\x08' then some 'b'
  else if c = '\t' then some 't'
  else if c = '\n' then some 'n'
  else if c = '\x0b' then some 'v'
  else if c = '\x0c' then some 'f'
  else if c = '\r' then some 'r'
  else if c = '\x1b' then some 'e'
  else if c = '"' || c = '\\' then some c
  else if c = '\x85' then some 'N'
  else if c = '\u2028' then some 'L'
  else if c = '\u2029' then some 'P'
  else none

/-- The escape of a character by its code. -/
def codeEscape (c : Char) : List Char :=
  let n := c.toNat
  if n ≤ 0xFF then '\\' :: 'x' :: Text.Hex.padded Text.Hex.upperDigit 2 n
  else if n ≤ 0xFFFF then '\\' :: 'u' :: Text.Hex.padded Text.Hex.upperDigit 4 n
  else '\\' :: 'U' :: Text.Hex.padded Text.Hex.upperDigit 8 n

/-- The written form of a character between double marks. -/
def doubleChar (c : Char) : List Char :=
  match escapeLetter? c with
  | some l => ['\\', l]
  | none => if isPrintable c then [c] else codeEscape c

/-- The lines of a literal scalar. -/
def literalBody (indent : Nat) (afterBreak : Bool) : List Char → List Char
  | [] => []
  | c :: cs =>
    if isBreak c then c :: literalBody indent true cs
    else (if afterBreak then spaces indent else []) ++ c :: literalBody indent false cs

/-- The header of a literal scalar: the indentation where the first line does not show
it, and what becomes of the breaks at the end. -/
def literalHeader (cs : List Char) : List Char :=
  let width := if cs.head?.any fun c => isSpace c || isBreak c then ['2'] else []
  let chomping := match cs.reverse with
    | c :: d :: _ => if !isBreak c then ['-'] else if isBreak d then ['+'] else []
    | [c] => if isBreak c then ['+'] else ['-']
    | [] => ['-']
  '|' :: width ++ chomping

/-- A text in a style, inside an indentation. -/
def Style.write (style : Style) (indent : Nat) (cs : List Char) : List Char :=
  match style with
  | plain => cs
  | single => '\'' :: singleBody indent false cs ++ ['\'']
  | double => '"' :: cs.flatMap doubleChar ++ ['"']
  | literal => literalHeader cs ++ '\n' :: literalBody indent true cs

end Extraction.Yaml
