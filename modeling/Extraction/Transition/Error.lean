import Extraction.Document.Display
import Extraction.Transition.Expression

/-!
# Extraction.Transition.Error

Why transitions are refused, and why access to a result fails, each as a cause with
its message.
-/

namespace Extraction.Transition

open Document

/-- A transition that is not a string. -/
inductive Malformed where
  | scalar (text : String)
  | null
  | other
deriving DecidableEq

def Malformed.message : Malformed → String
  | scalar text =>
    "invalid transition for value " ++ text ++ ". Every transition should be a string"
  | null => "invalid transition. Every transition should be a string. Null given"
  | other => "invalid transition. Every transition should be a string"

/-- A fault and the expression it was found in. -/
structure Problem where
  expression : String
  fault : Fault
deriving DecidableEq

def Problem.text (p : Problem) : String :=
  "transition '" ++ p.expression ++ "': " ++ p.fault.message

/-- The message that lists problems, the `Problem.text` of each on its own line. -/
def problemsMessage (ps : List Problem) : String :=
  ps.foldl (fun text p => text ++ "\n  - " ++ p.text) "invalid transition syntax:"

/-- A value that a check refused, see `validate`. -/
structure Rejection where
  assertion : Assertion
  searchKey : String
  value : Value

def Rejection.message (r : Rejection) : String :=
  "assertion '" ++ r.assertion.name ++ "' failed for '" ++ r.searchKey ++ "': got " ++
    r.value.typeName ++ " " ++ r.value.display

/-- Why transitions produce no result. -/
inductive Failure where
  | emptyTransitions
  | emptySource
  | malformed (m : Malformed)
  | problems (ps : List Problem)
  | rejected (r : Rejection)
  | noMatches

def Failure.message : Failure → String
  | emptyTransitions => "at least one transition is required"
  | emptySource => "source data must be a non-empty object or array"
  | malformed m => m.message
  | problems ps => problemsMessage ps
  | rejected r => r.message
  | noMatches => "internal error: no transition resolved to a value"

/-- Is the failure due to the search and not to its input? -/
def Failure.isInternal : Failure → Bool
  | noMatches => true
  | _ => false

/-- Why access to a result fails. -/
inductive AccessError where
  | notFound (key : String)
  | outOfRange (key : String)
deriving DecidableEq

def AccessError.message : AccessError → String
  | notFound key => "no value extracted under '" ++ key ++ "'"
  | outOfRange key => "'" ++ key ++ "' is not an extracted key; new keys cannot be added"

end Extraction.Transition
