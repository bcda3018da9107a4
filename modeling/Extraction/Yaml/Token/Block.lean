import Extraction.Decimal.Digits
import Extraction.Yaml.Place
import Extraction.Yaml.Token

/-!
# Extraction.Yaml.Token.Block

Block scalars: indented lines after a header.  A literal scalar keeps its line
breaks; a folded one joins two lines at the margin by a space.  The header says what
becomes of the breaks at the end, and may give the indentation.
-/

namespace Extraction.Yaml

/-- What becomes of the breaks at the end of a block scalar. -/
inductive Chomping where
  /-- None of them is kept. -/
  | strip
  /-- The first one is kept. -/
  | clip
  /-- All of them are kept. -/
  | keep
deriving DecidableEq

/-! ## the header -/

def chomping? (p : Place) : Option Chomping × Place :=
  match p.rest with
  | '-' :: _ => (some .strip, p.skip 1)
  | '+' :: _ => (some .keep, p.skip 1)
  | _ => (none, p)

/-- The indentation that the header gives, relative to the surrounding node; zero if it
gives none. -/
def increment (p : Place) : Except Error (Nat × Place) :=
  match p.rest with
  | c :: _ =>
    if c = '0' then .error .badBlockHeader
    else if Decimal.isDigit c then .ok (Decimal.digitValue c, p.skip 1)
    else .ok (0, p)
  | [] => .ok (0, p)

/-- Reads a header to the end of its line: two marks in either order, then blanks and a
comment. -/
def blockHeader (p : Place) : Except Error (Chomping × Nat × Place) := do
  let (before, p) := chomping? p
  let (width, p) ← increment p
  let (after, p) := if before.isSome then (none, p) else chomping? p
  let p := (p.skipWhile isBlank).skipComment
  if !startsWithBreak p.rest then throw .badBlockHeader
  let p := match p.break? with
    | some (_, p) => p
    | none => p
  return ((before.or after).getD .clip, width, p)

/-! ## the lines -/

/-- Skips empty lines and the indentation of the next line.  Answers the breaks, the
widest indentation, and the place.  An indentation of zero is not known yet. -/
def emptyLines (indent : Nat) : Nat → Place → Except Error (List Char × Nat × Place)
  | 0, p => .ok ([], 0, p)
  | fuel + 1, p =>
    let spaces := (p.rest.takeWhile (· = ' ')).length
    let p := p.skip (if indent = 0 then spaces else min spaces (indent - p.column))
    if (indent = 0 || p.column < indent) && p.rest.head? = some '\t' then
      .error .tabInIndentation
    else
      match p.break? with
      | none => .ok ([], p.column, p)
      | some (b, q) => do
        let (breaks, widest, q) ← emptyLines indent fuel q
        return (b :: breaks, max p.column widest, q)

/-- What the lines of a block scalar amount to: the text, the break after the last line
that is not empty, the breaks after that, and the place. -/
structure BlockLines where
  text : List Char
  lastBreak : List Char
  trailing : List Char
  place : Place

/-- The text between two lines: the break after the first one and the breaks of the
empty lines between them.  `blank` tells that one of the two lines begins with a blank. -/
def lineJoint (folded blank : Bool) (lastBreak trailing : List Char) : List Char :=
  if folded && lastBreak = ['\n'] && !blank then
    if trailing.isEmpty then [' '] else trailing
  else lastBreak ++ trailing

/-- Reads lines from a place where a line may begin.  `fuel` bounds their number. -/
def blockLines (folded : Bool) (indent : Nat) :
    Nat → Bool → List Char → List Char → Place → Except Error BlockLines
  | 0, _, lastBreak, trailing, p => .ok ⟨[], lastBreak, trailing, p⟩
  | fuel + 1, afterBlank, lastBreak, trailing, p =>
    if p.column = indent && !p.rest.isEmpty then do
      let blank := p.rest.head?.any isBlank
      let joint := lineJoint folded (afterBlank || blank) lastBreak trailing
      let (line, p) := p.span fun c => !isBreak c
      let (lastBreak, p) := match p.break? with
        | some (b, p) => ([b], p)
        | none => ([], p)
      let (trailing, _, p) ← emptyLines indent (fuel + 1) p
      let r ← blockLines folded indent fuel blank lastBreak trailing p
      return { r with text := joint ++ line ++ r.text }
    else return ⟨[], lastBreak, trailing, p⟩

/-- The breaks that are kept at the end. -/
def Chomping.tail : Chomping → List Char → List Char → List Char
  | strip, _, _ => []
  | clip, lastBreak, _ => lastBreak
  | keep, lastBreak, trailing => lastBreak ++ trailing

/-- Reads a block scalar from the place after its indicator on.  `margin` is the least
column of the text. -/
def blockScalar (folded : Bool) (margin fuel : Nat) (p : Place) :
    Except Error (List Char × Place) := do
  let (chomping, width, p) ← blockHeader p
  let given := if width = 0 then 0 else (margin - 1) + width
  let (trailing, widest, p) ← emptyLines given fuel p
  let indent := if given = 0 then max widest (max margin 1) else given
  let r ← blockLines folded indent fuel false [] trailing p
  return (r.text ++ chomping.tail r.lastBreak r.trailing, r.place)

end Extraction.Yaml
