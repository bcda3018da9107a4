import Extraction.Text.Blank
import Extraction.Yaml.Writer

/-!
# Extraction.Yaml.Document

Documents as YAML values, and YAML values as documents.  On the way to a document a
tag is dropped and a key becomes a text.
-/

namespace Extraction.Yaml

namespace Value

mutual

/-- Somewhere in the value a tag stands directly on another one; such a value cannot be
written. -/
def stacksTags : Value → Bool
  | tagged _ (tagged _ _) => true
  | tagged _ v => v.stacksTags
  | sequence items => itemsStackTags items
  | mapping entries => entriesStackTags entries
  | _ => false

def itemsStackTags : List Value → Bool
  | [] => false
  | v :: vs => v.stacksTags || itemsStackTags vs

def entriesStackTags : List (Value × Value) → Bool
  | [] => false
  | (k, v) :: es => k.stacksTags || v.stacksTags || entriesStackTags es

end

/-- The text of a key in a document; a key that cannot be written has the empty one. -/
def keyText : Value → String
  | string s => s
  | number n => String.ofList (numberChars n)
  | boolean b => if b then "true" else "false"
  | null => "null"
  | v => if v.stacksTags then "" else String.ofList (Text.trimEnd v.write.toList)

mutual

/-- The document of a value. -/
def toDocument : Value → Document.Value
  | null => .null
  | boolean b => .boolean b
  | number n => .number n
  | string s => .string s
  | sequence items => .array (itemsToDocument items)
  | mapping entries => .ofPairs (entriesToDocument entries)
  | tagged _ v => v.toDocument

def itemsToDocument : List Value → List Document.Value
  | [] => []
  | v :: vs => v.toDocument :: itemsToDocument vs

def entriesToDocument : List (Value × Value) → List (String × Document.Value)
  | [] => []
  | (k, v) :: es => (k.keyText, v.toDocument) :: entriesToDocument es

end

mutual

/-- The value of a document. -/
def ofDocument : Document.Value → Value
  | .null => null
  | .boolean b => boolean b
  | .number n => number n
  | .string s => string s
  | .array items => sequence (ofItems items)
  | .object entries => mapping (ofEntries entries)

def ofItems : List Document.Value → List Value
  | [] => []
  | v :: vs => ofDocument v :: ofItems vs

def ofEntries : List (String × Document.Value) → List (Value × Value)
  | [] => []
  | (k, v) :: es => (string k, ofDocument v) :: ofEntries es

end

end Value

/-- The YAML text of a document. -/
def write (v : Document.Value) : String := (Value.ofDocument v).write

end Extraction.Yaml
