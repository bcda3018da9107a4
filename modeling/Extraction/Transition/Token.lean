import Extraction.Transition.Assertion

/-!
# Extraction.Transition.Token

What a transition expression says: where the value lies, what it has to pass, and
what it is called in the result.
-/

namespace Extraction.Transition

/-- A transition.  Segment `i` of the path has to be found at depth `i`, where the
direct children of the root are at depth zero. -/
structure Token where
  /-- The text that the transition was read from. -/
  expression : String
  path : List String
  /-- The checks in the order in which they run. -/
  assertions : List Assertion
  /-- The name of the value in the result, if it is not the last segment. -/
  aliasName : Option String

namespace Token

/-- The last segment of the path; the key that holds the value. -/
def searchKey (t : Token) : String := t.path.getLast?.getD ""

/-- The name that the value is stored under: the alias, else the `searchKey`. -/
def outputName (t : Token) : String := t.aliasName.getD t.searchKey

/-- The number of levels that the value lies below the root. -/
def depth (t : Token) : Nat := t.path.length

end Token

end Extraction.Transition
