import Extraction.Text.Hex
import Extraction.Yaml.Place
import Extraction.Yaml.Token
import Extraction.Yaml.Token.Fold

/-!
# Extraction.Yaml.Token.Quoted

Scalars between quotation marks.  Between single marks a mark is written twice;
between double marks a backslash begins an escape, and one at the end of a line
joins the next line without a space.
-/

namespace Extraction.Yaml

/-- A piece of a quoted scalar without gaps. -/
structure Piece where
  text : List Char
  /-- The number of characters that it takes up. -/
  width : Nat
  /-- It ends with an escaped line break. -/
  joins : Bool

/-- The piece with a character in front that takes up some characters. -/
def Piece.cons (c : Char) (width : Nat) (s : Piece) : Piece :=
  ⟨c :: s.text, s.width + width, s.joins⟩

def Piece.nil : Piece := ⟨[], 0, false⟩

/-- The piece at the front of a text between single marks. -/
def singlePiece : List Char → Piece
  | [] => .nil
  | '\'' :: '\'' :: cs => (singlePiece cs).cons '\'' 2
  | c :: cs => if c = '\'' || isGap c then .nil else (singlePiece cs).cons c 1

/-- The character that a letter stands for after a backslash. -/
def unescape? (c : Char) : Option Char :=
  match c with
  | '0' => some '\x00'
  | 'a' => some '\x07'
  | 'b' => some '\x08'
  | 't' => some '\t'
  | '\t' => some '\t'
  | 'n' => some '\n'
  | 'v' => some '\x0b'
  | 'f' => some '\x0c'
  | 'r' => some '\r'
  | 'e' => some '\x1b'
  | ' ' => some ' '
  | '"' => some '"'
  | '/' => some '/'
  | '\\' => some '\\'
  | 'N' => some '\x85'
  | '_' => some '\xa0'
  | 'L' => some '\u2028'
  | 'P' => some '\u2029'
  | _ => none

/-- The number of hexadecimal digits after a letter that begins a code. -/
def codeWidth? (c : Char) : Option Nat :=
  match c with
  | 'x' => some 2
  | 'u' => some 4
  | 'U' => some 8
  | _ => none

/-- The character with a code, if there is one. -/
def charOfCode? (n : Nat) : Option Char :=
  if n < 0xD800 || (0xE000 ≤ n && n < 0x110000) then some (Char.ofNat n) else none

/-- The piece at the front of a text between double marks. -/
def doublePiece : List Char → Except Error Piece
  | [] => .ok .nil
  | '\\' :: '\r' :: '\n' :: _ => .ok ⟨[], 3, true⟩
  | ['\\'] => .error .badEscape
  | '\\' :: c :: cs =>
    if isBreak c then .ok ⟨[], 2, true⟩
    else
      match codeWidth? c with
      | some w =>
        match (Text.Hex.take? w cs).bind fun r => charOfCode? r.1 with
        | some d => (doublePiece (cs.drop w)).map (Piece.cons d (w + 2))
        | none => .error .badEscape
      | none =>
        match unescape? c with
        | some d => (doublePiece cs).map (Piece.cons d 2)
        | none => .error .badEscape
  | c :: cs => if c = '"' || isGap c then .ok .nil else (doublePiece cs).map (Piece.cons c 1)
termination_by cs => cs.length
decreasing_by all_goals (simp; try omega)

/-- The two kinds of quotation marks. -/
inductive Quote where
  | single
  | double
deriving DecidableEq

def Quote.mark : Quote → Char
  | single => '\''
  | double => '"'

def Quote.piece : Quote → List Char → Except Error Piece
  | single, cs => .ok (singlePiece cs)
  | double, cs => doublePiece cs

/-- Reads the pieces from a place after the opening mark on; answers the text and the
place after the closing mark.  `fuel` bounds the number of pieces. -/
def quotedFrom (q : Quote) : Nat → Place → Except Error (List Char × Place)
  | 0, _ => .error .unclosedScalar
  | fuel + 1, p =>
    if p.atMarker then .error .unexpectedMarker
    else if p.rest.isEmpty then .error .unclosedScalar
    else do
      let piece ← q.piece p.rest
      let p := p.skip piece.width
      if p.rest.head? = some q.mark then return (piece.text, p.skip 1)
      else
        let (gap, p) := p.span isGap
        let between := if piece.joins then breaksOf gap else fold gap
        let (text, p) ← quotedFrom q fuel p
        return (piece.text ++ between ++ text, p)

end Extraction.Yaml
