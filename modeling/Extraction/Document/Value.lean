import Extraction.Document.Entries

/-!
# Extraction.Document.Value

The documents that values are taken from: objects with their keys in insertion
order, lists, and scalars.

An integer has one of two forms, `int` up to the largest signed word and `nat`
above it; `Number.ofUInt64` and `Number.ofInt?` choose the form that a reader of
documents uses.
-/

namespace Extraction.Document

/-- A number of a document. -/
inductive Number where
  /-- A signed integer. -/
  | int (n : Int64)
  /-- An integer above the signed range. -/
  | nat (n : UInt64)
  | float (x : Float)

/-- A document, or a part of one. -/
inductive Value where
  | object (entries : List (String × Value))
  | array (items : List Value)
  | string (s : String)
  | number (n : Number)
  | boolean (b : Bool)
  | null

namespace Number

/-- The integer as a signed word if it fits, else as an unsigned one. -/
def ofUInt64 (n : UInt64) : Number :=
  if n.toNat < 0x8000000000000000 then .int n.toInt64 else .nat n

/-- The form of an integer in a document that was read, if it has one; the same form as `ofUInt64`
chooses where both apply. -/
def ofInt? (n : Int) : Option Number :=
  if n < -0x8000000000000000 then none
  else if n < 0x8000000000000000 then some (.int (Int64.ofInt n))
  else if n < 0x10000000000000000 then some (.nat (UInt64.ofNat n.toNat))
  else none

def toFloat : Number → Float
  | .int n => n.toFloat
  | .nat n => n.toFloat
  | .float x => x

def isInteger : Number → Bool
  | .float _ => false
  | _ => true

def isFloat : Number → Bool
  | .float _ => true
  | _ => false

end Number

namespace Value

def isObject : Value → Bool
  | object _ => true
  | _ => false

def isArray : Value → Bool
  | array _ => true
  | _ => false

/-- Objects and lists: `isObject` or `isArray`. -/
def isContainer (v : Value) : Bool := v.isObject || v.isArray

/-- Strings, numbers and booleans. -/
def isScalar : Value → Bool
  | string _ | number _ | boolean _ => true
  | _ => false

def isNull : Value → Bool
  | null => true
  | _ => false

/-- The number of direct children; a scalar has none. -/
def length : Value → Nat
  | object es => es.length
  | array xs => xs.length
  | _ => 0

def isEmpty (v : Value) : Bool := v.length == 0

def string? : Value → Option String
  | string s => some s
  | _ => none

/-- The value of a signed integer. -/
def int? : Value → Option Int64
  | number (.int n) => some n
  | _ => none

/-- The direct child of an object under a key. -/
def get? (key : String) : Value → Option Value
  | object es => Entries.get? key es
  | _ => none

/-- The name of the kind of value, as messages give it. -/
def typeName : Value → String
  | object _ => "object"
  | array _ => "array"
  | string _ => "string"
  | number n => if n.isFloat then "float" else "integer"
  | boolean _ => "boolean"
  | null => "null"

/-- An object from pairs by `Entries.ofList`; a repeated key keeps its first place and takes the
last value. -/
def ofPairs (ps : List (String × Value)) : Value := object (Entries.ofList ps)

mutual

/-- The number of nodes of a document, its root included. -/
def size : Value → Nat
  | object es => 1 + sizeEntries es
  | array xs => 1 + sizeItems xs
  | _ => 1

def sizeEntries : List (String × Value) → Nat
  | [] => 0
  | (_, v) :: es => v.size + sizeEntries es

def sizeItems : List Value → Nat
  | [] => 0
  | v :: xs => v.size + sizeItems xs

end

end Value

end Extraction.Document
