import Extraction.Text.Hex

/-!
# Extraction.Text.Uuid

The written forms of a universally unique identifier: thirty-two hexadecimal digits,
or the hyphenated form, which may stand in braces or after its resource name.
-/

namespace Extraction.Text.Uuid

/-- Thirty-two hexadecimal digits. -/
def isSimple (cs : List Char) : Bool := cs.length == 32 && cs.all Hex.isDigit

/-- The lengths of the groups of the hyphenated form. -/
def groups : List Nat := [8, 4, 4, 4, 12]

/-- Hexadecimal digits in groups of the given lengths, with a hyphen between two groups. -/
def isGrouped : List Nat → List Char → Bool
  | [], cs => cs.isEmpty
  | [n], cs => cs.length == n && cs.all Hex.isDigit
  | n :: m :: ns, cs =>
    (cs.take n).length == n && (cs.take n).all Hex.isDigit &&
      match cs.drop n with
      | '-' :: rest => isGrouped (m :: ns) rest
      | _ => false

def isHyphenated (cs : List Char) : Bool := isGrouped groups cs

/-- What follows the resource name, whose letters may have either case. -/
def afterName? (cs : List Char) : Option (List Char) :=
  if (cs.take 9).map Char.toLower = "urn:uuid:".toList then some (cs.drop 9) else none

/-- What stands between two braces. -/
def insideBraces? : List Char → Option (List Char)
  | '\x7b' :: cs => if cs.getLast? = some '\x7d' then some cs.dropLast else none
  | _ => none

/-- Is a text a written form of an identifier? -/
def isWritten (cs : List Char) : Bool :=
  isSimple cs || isHyphenated cs ||
    (match insideBraces? cs with | some inner => isHyphenated inner | none => false) ||
    (match afterName? cs with | some inner => isHyphenated inner | none => false)

end Extraction.Text.Uuid
