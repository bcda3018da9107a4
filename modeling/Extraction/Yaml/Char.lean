/-!
# Extraction.Yaml.Char

The classes of characters that YAML text is made of.
-/

namespace Extraction.Yaml

/-- The characters that a YAML text may hold. -/
def isAllowed (c : Char) : Bool :=
  let n := c.toNat
  n == 0x09 || n == 0x0A || n == 0x0D || (0x20 ≤ n && n ≤ 0x7E) || n == 0x85 ||
    (0xA0 ≤ n && n ≤ 0xD7FF) || (0xE000 ≤ n && n ≤ 0xFFFD) || 0x10000 ≤ n

/-- The line breaks; a carriage return and a line feed together are one break. -/
def isBreak (c : Char) : Bool :=
  c = '\n' || c = '\r' || c = '\x85' || c = '\u2028' || c = '\u2029'

/-- The form in which a break gets into a text: the two separators as they are, each
other break as a line feed. -/
def normalBreak (c : Char) : Char :=
  if c = '\u2028' || c = '\u2029' then c else '\n'

def isBlank (c : Char) : Bool := c = ' ' || c = '\t'

/-- Blanks and breaks. -/
def isGap (c : Char) : Bool := isBlank c || isBreak c

/-- The characters of names: letters, digits, `-` and `_`. -/
def isWord (c : Char) : Bool :=
  ('0' ≤ c && c ≤ '9') || ('A' ≤ c && c ≤ 'Z') || ('a' ≤ c && c ≤ 'z') || c = '-' || c = '_'

/-- The indicators of flow collections. -/
def isFlowIndicator (c : Char) : Bool :=
  c = ',' || c = '[' || c = ']' || c = '\x7b' || c = '\x7d'

/-- The characters of a tag. -/
def isTagChar (c : Char) : Bool :=
  isWord c || ";/?:@&=+$.%!~*'()".toList.contains c

/-- The characters of a tag in angle brackets, and of a tag handle's meaning. -/
def isVerbatimTagChar (c : Char) : Bool := isTagChar c || c = ',' || c = '[' || c = ']'

/-- The characters that no plain scalar begins with, unless a rule for the character
after it says otherwise. -/
def isIndicator (c : Char) : Bool :=
  isFlowIndicator c || "-?:#&*!|>'\"%@`".toList.contains c

end Extraction.Yaml
