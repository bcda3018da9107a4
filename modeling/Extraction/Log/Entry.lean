import Extraction.Log.Level

/-!
# Extraction.Log.Entry

Entries of the log as text lines.
-/

namespace Extraction.Log

/-- An entry of the log. -/
structure Entry where
  level : Level
  /-- The part of the program that it comes from. -/
  target : String
  text : String

namespace Entry

/-- The name of a level, with a blank after it if it is one of the short ones. -/
def levelText (l : Level) : String :=
  match l with
  | .warn | .info => l.name ++ " "
  | _ => l.name

/-- A character of a text over several lines; the lines after the first are indented. -/
def indented (c : Char) : List Char := if c = '\n' then "\n    ".toList else [c]

/-- An entry as it is printed, with its `levelText` and its text `indented`, and without the line
feed at its end. -/
def print (e : Entry) : String :=
  "[" ++ levelText e.level ++ " " ++ e.target ++ "] " ++
    String.ofList (e.text.toList.flatMap indented)

end Entry

end Extraction.Log
