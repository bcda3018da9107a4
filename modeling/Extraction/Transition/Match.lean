import Extraction.Transition.Record
import Extraction.Transition.Results

/-!
# Extraction.Transition.Match

Finding the values of tokens in a document, checking them and collecting them under
their output names.  Tokens are handled in order; a token that leads nowhere adds
nothing, and a value that a check refuses ends the matching.
-/

namespace Extraction.Transition

open Document

/-- Runs the checks of a token in their order; the first that refuses the value wins. -/
def validate (value : Value) (token : Token) : Except Rejection Unit :=
  match token.assertions.find? fun a => !a.check value with
  | some a => .error ⟨a, token.searchKey, value⟩
  | none => .ok ()

/-- The values found for tokens, under their output names, and the log. A value that `validate`
refuses ends both. -/
def collect (root : Value) : List Token → List Record × Except Rejection (List (String × Value))
  | [] => ([], .ok [])
  | t :: ts =>
    let (steps, found) := trace t.path root
    let before := steps.map Record.matched
    match found with
    | none =>
      let (log, result) := collect root ts
      (before ++ .unmatched t :: log, result)
    | some visit =>
      match validate visit.value t with
      | .error r => (before, .error r)
      | .ok () =>
        let (log, result) := collect root ts
        (before ++ .resolved t visit.value :: log,
          result.map fun values => (t.outputName, visit.value) :: values)

/-- Matches tokens against a document: the `Results` of what `collect` answers, if it answers any.
-/
def matchTokens (tokens : List Token) (root : Value) : List Record × Except Failure Results :=
  let (log, result) := collect root tokens
  (log, match result with
    | .error r => .error (.rejected r)
    | .ok [] => .error .noMatches
    | .ok values => .ok (Results.ofList values))

end Extraction.Transition
