import Extraction.Decimal.Reading
import Extraction.Document.Value
import Extraction.Text.Blank
import Extraction.Text.Uuid

/-!
# Extraction.Transition.Assertion

The checks that a transition can attach to the value it finds.  The set is closed:
every name of `Assertion.table` denotes one check, and several names may denote the
same one.

* `lookup_name` — the canonical name of a check denotes it.
-/

namespace Extraction.Transition

open Document

/-- A check on a value. -/
inductive Assertion where
  | boolean
  | float
  | integer
  | isArray
  | isObject
  | notEmpty
  | notNull
  | null
  /-- A number, or a string that reads as one. -/
  | numeric
  | positive
  /-- A string, number or boolean. -/
  | scalar
  | string
  /-- A string that is a written form of a unique identifier. -/
  | uuid
deriving DecidableEq, Repr

namespace Assertion

/-- The names and the checks they denote, in increasing order of the names. -/
def table : List (String × Assertion) :=
  [("array", isArray), ("bool", boolean), ("boolean", boolean), ("float", float),
   ("int", integer), ("integer", integer), ("isArray", isArray), ("isObject", isObject),
   ("notEmpty", notEmpty), ("notNull", notNull), ("null", null), ("numeric", numeric),
   ("object", isObject), ("positive", positive), ("scalar", scalar), ("string", string),
   ("uuid", uuid)]

/-- The check that a name denotes in the `table`; the case of letters counts. -/
def lookup (name : String) : Option Assertion :=
  (table.find? fun entry => entry.1 == name).map Prod.snd

/-- The canonical name, used in messages. -/
def name : Assertion → String
  | boolean => "boolean"
  | float => "float"
  | integer => "integer"
  | isArray => "isArray"
  | isObject => "isObject"
  | notEmpty => "notEmpty"
  | notNull => "notNull"
  | null => "null"
  | numeric => "numeric"
  | positive => "positive"
  | scalar => "scalar"
  | string => "string"
  | uuid => "uuid"

/-- The name in capitalised form, used in the log. -/
def title : Assertion → String
  | boolean => "Boolean"
  | float => "Float"
  | integer => "Integer"
  | isArray => "IsArray"
  | isObject => "IsObject"
  | notEmpty => "NotEmpty"
  | notNull => "NotNull"
  | null => "Null"
  | numeric => "Numeric"
  | positive => "Positive"
  | scalar => "Scalar"
  | string => "String"
  | uuid => "Uuid"

/-- Does `Decimal.read?` take a text for a number, white space around it apart? -/
def isNumericText (s : String) : Bool := (Decimal.read? (Text.trim s.toList)).isSome

/-- Does a value pass the check? -/
def check : Assertion → Value → Bool
  | boolean, .boolean _ => true
  | float, .number n => n.isFloat
  | integer, .number n => n.isInteger
  | isArray, v => v.isArray
  | isObject, v => v.isObject
  | notEmpty, .null => false
  | notEmpty, .string s => s != ""
  | notEmpty, .object es => !es.isEmpty
  | notEmpty, .array xs => !xs.isEmpty
  | notEmpty, _ => true
  | notNull, v => !v.isNull
  | null, v => v.isNull
  | numeric, .number _ => true
  | numeric, .string s => isNumericText s
  | positive, .number n => decide (0.0 < n.toFloat)
  | scalar, v => v.isScalar
  | string, .string _ => true
  | uuid, .string s => Text.Uuid.isWritten s.toList
  | _, _ => false

/-- Each check is found under its own name. -/
theorem lookup_name (a : Assertion) : lookup a.name = some a := by
  cases a <;> decide

end Assertion

end Extraction.Transition
