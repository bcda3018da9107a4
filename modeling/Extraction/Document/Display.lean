import Extraction.Json.Writer

/-!
# Extraction.Document.Display

The text of a value in messages: a scalar as its plain text, a container as compact
JSON.
-/

namespace Extraction.Document

/-- The plain text of a number; an integer is written by `Decimal.text` or `Decimal.intText`. -/
def Number.display : Number → String
  | .int n => Decimal.intText n.toInt
  | .nat n => Decimal.text n.toNat
  | .float x => Decimal.plainText x

def Value.display : Value → String
  | string s => s
  | number n => n.display
  | boolean b => if b then "true" else "false"
  | null => "null"
  | v => Json.write .compact v

end Extraction.Document
