import Extraction.Yaml.Document
import Extraction.Yaml.Token.Stream
import Extraction.Yaml.Value.OfNode

/-!
# Extraction.Yaml.Reader

Reading a YAML text that holds at most one document.  An empty text is null.
-/

namespace Extraction.Yaml

/-- A text without a byte order mark at its beginning. -/
def dropMark : List Char → List Char
  | '\ufeff' :: cs => cs
  | cs => cs

/-- The value of a text. -/
def readValue (cs : List Char) : Except Error Value := do
  let cs := dropMark cs
  if !cs.all isAllowed then throw .characterNotAllowed
  Value.ofNode (← document (← tokens cs))

/-- The document of a text. -/
def read (text : String) : Except Error Document.Value :=
  (readValue text.toList).map Value.toDocument

end Extraction.Yaml
