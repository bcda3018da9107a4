import Extraction.Text.Extending
import Extraction.Text.Hex
import Extraction.Text.Invisible

/-!
# Extraction.Text.Quoted

The quoted form of a text in the log: between quotation marks, with escapes for
everything that would not show or that would join the character before it.
-/

namespace Extraction.Text

/-- The escape of a character by its code point. -/
def codeEscape (c : Char) : List Char :=
  ['\\', 'u', '\x7b'] ++ Hex.digits c.toNat ++ ['\x7d']

/-- The quoted form of one character. -/
def quoteChar (c : Char) : List Char :=
  if c = '\x00' then ['\\', '0']
  else if c = '\t' then ['\\', 't']
  else if c = '\r' then ['\\', 'r']
  else if c = '\n' then ['\\', 'n']
  else if c = '"' || c = '\\' then ['\\', c]
  else if ' ' ≤ c && c ≤ '~' then [c]
  else if isExtending c || isInvisible c then codeEscape c
  else [c]

/-- A text between quotation marks. -/
def quote (s : String) : String := String.ofList ('"' :: s.toList.flatMap quoteChar ++ ['"'])

/-- Texts in brackets, with a comma and a space between two of them. -/
def bracket (ts : List String) : String := "[" ++ String.intercalate ", " ts ++ "]"

end Extraction.Text
