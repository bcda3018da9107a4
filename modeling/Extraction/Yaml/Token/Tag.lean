import Extraction.Decimal.Digits
import Extraction.Text.Hex
import Extraction.Yaml.Place
import Extraction.Yaml.Token

/-!
# Extraction.Yaml.Token.Tag

Anchors, references, tags and directives.  A tag is a handle with a suffix; the handle
is empty for a tag in angle brackets and for the mark alone.
-/

namespace Extraction.Yaml

/-! ## anchors and references -/

/-- A text that may follow the name of an anchor. -/
def endsAnchor : List Char → Bool
  | [] => true
  | c :: _ => isGap c || "?:,]\x7d%@`".toList.contains c

/-- Reads the name after the mark of an anchor or a reference. -/
def anchorName (p : Place) : Except Error (String × Place) :=
  let (name, p) := p.span isWord
  if name.isEmpty || !endsAnchor p.rest then .error .badAnchor
  else .ok (String.ofList name, p)

/-! ## tags -/

/-- The number of bytes of a character whose first byte this is. -/
def byteCount? (first : Nat) : Option Nat :=
  if first < 0x80 then some 1
  else if first < 0xC0 then none
  else if first < 0xE0 then some 2
  else if first < 0xF0 then some 3
  else if first < 0xF8 then some 4
  else none

/-- Percent escapes of bytes, with what follows them. -/
def escapedBytes? : Nat → List Char → Option (List UInt8 × List Char)
  | 0, cs => some ([], cs)
  | n + 1, '%' :: a :: b :: cs => do
    let byte ← Text.Hex.number? [a, b]
    let (bytes, cs) ← escapedBytes? n cs
    return (UInt8.ofNat byte :: bytes, cs)
  | _ + 1, _ => none

/-- The character that bytes encode. -/
def charOfBytes (bytes : List UInt8) : Char :=
  match (String.fromUTF8? ⟨bytes.toArray⟩).map String.toList with
  | some [c] => c
  | _ => '\ufffd'

/-- A character that is written as percent escapes of its bytes, with the number of
characters that they take up. -/
def escapedChar? (cs : List Char) : Option (Char × Nat) := do
  let (first, _) ← escapedBytes? 1 cs
  let n ← byteCount? (first.headD 0).toNat
  let (bytes, _) ← escapedBytes? n cs
  if (bytes.drop 1).all fun b => 0x80 ≤ b && b < 0xC0 then return (charOfBytes bytes, 3 * n)
  else none

/-- The text of a tag, and the number of characters that it takes up. -/
def tagText (isIn : Char → Bool) : List Char → Except Error (List Char × Nat)
  | [] => .ok ([], 0)
  | c :: cs =>
    if c = '%' then
      match escapedChar? (c :: cs) with
      | some (d, n) => (tagText isIn (cs.drop (n - 1))).map fun r => (d :: r.1, r.2 + n)
      | none => .error .badEscape
    else if isIn c then (tagText isIn cs).map fun r => (c :: r.1, r.2 + 1)
    else .ok ([], 0)
termination_by cs => cs.length
decreasing_by all_goals (simp; try omega)

/-- Reads the text of a tag; the null character ends what counts of it. -/
def readTagText (isIn : Char → Bool) (p : Place) : Except Error (List Char × Place) := do
  let (text, n) ← tagText isIn p.rest
  return (text.takeWhile (· ≠ '\x00'), p.skip n)

/-- Reads a text of a tag that takes up at least one character. -/
def readTagText1 (isIn : Char → Bool) (p : Place) : Except Error (List Char × Place) := do
  let (text, q) ← readTagText isIn p
  if q.index = p.index then throw .badTag
  return (text, q)

/-- The handle at a place: a mark, and a name with another mark after it if there is one. -/
def readHandle (p : Place) : List Char × Place :=
  let (name, q) := (p.skip 1).span isWord
  match q.rest with
  | '!' :: _ => ('!' :: name ++ ['!'], q.skip 1)
  | _ => ('!' :: name, q)

/-- A handle between two marks; what begins with one mark is the start of a suffix. -/
def isClosedHandle (handle : List Char) : Bool :=
  2 ≤ handle.length && handle.getLast? = some '!'

/-- Reads a tag from its mark on. -/
def readTag (flow : Bool) (p : Place) : Except Error (Token × Place) := do
  let (handle, suffix, p) ←
    match p.rest with
    | _ :: '<' :: _ => do
      let (text, p) ← readTagText1 isVerbatimTagChar (p.skip 2)
      if p.rest.head? ≠ some '>' then throw .badTag
      pure ([], text, p.skip 1)
    | _ =>
      let (handle, p) := readHandle p
      if isClosedHandle handle then do
        let (text, p) ← readTagText1 isTagChar p
        pure (handle, text, p)
      else do
        let (text, p) ← readTagText isTagChar p
        let suffix := handle.drop 1 ++ text
        pure (if suffix.isEmpty then ([], ['!'], p) else (['!'], suffix, p))
  if startsWithGap p.rest || (flow && p.rest.head? = some ',') then
    return (.tag (String.ofList handle) (String.ofList suffix), p)
  else throw .badTag

/-! ## directives -/

/-- A number of a version, of at most nine digits. -/
def versionNumber (p : Place) : Except Error (Nat × Place) :=
  let (digits, p) := p.span Decimal.isDigit
  if digits.isEmpty || 9 < digits.length then .error .badDirective
  else .ok (Decimal.value digits, p)

/-- Reads the version after the name of its directive. -/
def versionDirective (p : Place) : Except Error (Token × Place) := do
  let (major, p) ← versionNumber (p.skipWhile isBlank)
  if p.rest.head? ≠ some '.' then throw .badDirective
  let (minor, p) ← versionNumber (p.skip 1)
  return (.version major minor, p)

/-- Reads a handle and its meaning after the name of the directive. -/
def handleDirective (p : Place) : Except Error (Token × Place) := do
  let p := p.skipWhile isBlank
  if p.rest.head? ≠ some '!' then throw .badDirective
  let (handle, p) := readHandle p
  if !(isClosedHandle handle || handle = ['!']) then throw .badDirective
  if !(p.rest.head?.any isBlank) then throw .badDirective
  let (meaning, p) ← readTagText1 isVerbatimTagChar (p.skipWhile isBlank)
  if !startsWithGap p.rest then throw .badDirective
  return (.handle (String.ofList handle) (String.ofList meaning), p)

/-- Reads a directive from its mark to the end of its line. -/
def readDirective (p : Place) : Except Error (Token × Place) := do
  let (name, p) := (p.skip 1).span isWord
  if name.isEmpty || !startsWithGap p.rest then throw .badDirective
  let (token, p) ←
    if name = "YAML".toList then versionDirective p
    else if name = "TAG".toList then handleDirective p
    else throw .badDirective
  let p := (p.skipWhile isBlank).skipComment
  if !startsWithBreak p.rest then throw .badDirective
  match p.break? with
  | some (_, p) => return (token, p)
  | none => return (token, p)

end Extraction.Yaml
