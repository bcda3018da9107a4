import Extraction.Document.Value

/-!
# Extraction.Yaml.Value

The values of YAML documents.  They have more to them than documents have: the keys
of a mapping may be any values, and a value may carry a tag.
-/

namespace Extraction.Yaml

open Document (Number)

/-- A YAML value. -/
inductive Value where
  | null
  | boolean (b : Bool)
  | number (n : Number)
  | string (s : String)
  | sequence (items : List Value)
  | mapping (entries : List (Value × Value))
  | tagged (tag : String) (value : Value)

/-- Numbers are equal if they have the same form and value.  A float that is not a number equals
every other such float, itself among them. -/
def sameNumber : Number → Number → Bool
  | .int m, .int n => m == n
  | .nat m, .nat n => m == n
  | .float x, .float y => x == y || (x.isNaN && y.isNaN)
  | _, _ => false

/-- A tag without the mark in front of it; the mark alone is kept. -/
def bareTag (tag : String) : String :=
  match tag.toList with
  | '!' :: c :: cs => String.ofList (c :: cs)
  | _ => tag

namespace Value

mutual

/-- Equality of values; the order of a mapping does not matter. -/
def same : Value → Value → Bool
  | null, null => true
  | boolean a, boolean b => a == b
  | number m, number n => sameNumber m n
  | string s, string t => s == t
  | sequence xs, sequence ys => sameItems xs ys
  | mapping es, mapping fs => es.length == fs.length && entriesIn es fs
  | tagged s v, tagged t w => bareTag s == bareTag t && v.same w
  | _, _ => false

def sameItems : List Value → List Value → Bool
  | [], [] => true
  | x :: xs, y :: ys => x.same y && sameItems xs ys
  | _, _ => false

/-- Each entry has an equal one among others. -/
def entriesIn : List (Value × Value) → List (Value × Value) → Bool
  | [], _ => true
  | (k, v) :: es, fs => (fs.any fun f => k.same f.1 && v.same f.2) && entriesIn es fs

end

/-- Two of the values are equal. -/
def hasRepeat : List Value → Bool
  | [] => false
  | v :: vs => vs.any v.same || hasRepeat vs

end Value

end Extraction.Yaml
