import Extraction.Yaml.Char

/-!
# Extraction.Yaml.Token.Fold

What the blanks and breaks between two words of a scalar stand for.  Blanks on one
line stand for themselves; a single line feed stands for a space; of several breaks
the first one is dropped if it is a line feed.
-/

namespace Extraction.Yaml

/-- The breaks of a text in their normal form. -/
def breaksOf : List Char → List Char
  | [] => []
  | '\r' :: '\n' :: cs => '\n' :: breaksOf cs
  | c :: cs => if isBreak c then normalBreak c :: breaksOf cs else breaksOf cs

/-- The text that a gap stands for. -/
def fold (gap : List Char) : List Char :=
  match breaksOf gap with
  | [] => gap
  | ['\n'] => [' ']
  | '\n' :: breaks => breaks
  | breaks => breaks

/-- A gap that holds a break. -/
def hasBreak (gap : List Char) : Bool := gap.any isBreak

/-- A gap with a tab left of a margin, on a line after its first; `column` is the
column on such a line. -/
def tabInMargin (margin : Nat) (column : Option Nat) : List Char → Bool
  | [] => false
  | c :: cs =>
    if isBreak c then tabInMargin margin (some 0) cs
    else
      match column with
      | none => tabInMargin margin none cs
      | some k => (c = '\t' && k < margin) || tabInMargin margin (some (k + 1)) cs

end Extraction.Yaml
