import Extraction.Yaml.Place
import Extraction.Yaml.Token
import Extraction.Yaml.Token.Fold

/-!
# Extraction.Yaml.Token.Plain

Plain scalars: words with gaps between them, up to a comment, a colon that separates
a key from its value, a bracket or comma inside brackets, or a line that is not
indented enough.
-/

namespace Extraction.Yaml

/-- A text whose first character may not follow a colon inside brackets. -/
def startsWithFlowIndicator : List Char → Bool
  | c :: _ => isFlowIndicator c || c = '?'
  | [] => false

/-- The word at the front of a text. -/
def plainWord (flow : Bool) : List Char → Except Error (List Char)
  | [] => .ok []
  | c :: cs =>
    if isGap c then .ok []
    else if c = ':' then
      if flow && startsWithFlowIndicator cs then .error .unexpectedColon
      else if startsWithGap cs then .ok []
      else (plainWord flow cs).map (c :: ·)
    else if flow && isFlowIndicator c then .ok []
    else (plainWord flow cs).map (c :: ·)

/-- A scalar that was read. -/
structure PlainScalar where
  text : List Char
  /-- The place after it, and after the gap that follows it. -/
  place : Place
  /-- A line break follows the last word. -/
  endsLine : Bool

/-- Reads the words from a place on; `gap` stands between the words before and the
next one.  `fuel` bounds the number of words. -/
def plainFrom (flow : Bool) (margin : Nat) :
    Nat → List Char → Bool → Place → Except Error PlainScalar
  | 0, _, endsLine, p => .ok ⟨[], p, endsLine⟩
  | fuel + 1, gap, endsLine, p =>
    if p.atMarker || p.rest.head? = some '#' then .ok ⟨[], p, endsLine⟩
    else do
      let word ← plainWord flow p.rest
      let text := if word.isEmpty then [] else gap ++ word
      let p := p.skip word.length
      let (gap, next) := p.span isGap
      if gap.isEmpty then return ⟨text, p, endsLine && word.isEmpty⟩
      else if tabInMargin margin none gap then throw .tabInIndentation
      else if !flow && next.column < margin then return ⟨text, next, hasBreak gap⟩
      else
        let s ← plainFrom flow margin fuel (fold gap) (hasBreak gap) next
        return ⟨text ++ s.text, s.place, s.endsLine⟩

end Extraction.Yaml
