import Extraction.Transition.Batch
import Extraction.Transition.Match

/-!
# Extraction.Transition.Apply

Applying transitions to a document: read all of them, refuse empty input, tell all
faults together, match, collect.  Each stage is reached only if the one before it
succeeded.
-/

namespace Extraction.Transition

open Document

/-- Transitions that were applied: their tokens in order, and the values. -/
structure Applied where
  tokens : List Token
  results : Results

/-- Reads entries one after the other by `Batch.readValue`, up to the first that is malformed. -/
def readEntries (b : Batch) : List Value → List Record × Except Malformed (List Token × Batch)
  | [] => ([], .ok ([], b))
  | v :: vs =>
    match b.readValue v with
    | .error m => ([], .error m)
    | .ok (t, b) =>
      let (log, result) := readEntries b vs
      (.parsed t :: log, result.map fun r => (t :: r.1, r.2))

/-- The checks between reading and matching: some tokens, a document with children, and no problem
in the `Batch`. -/
def admit? (tokens : List Token) (batch : Batch) (source : Value) : Except Failure Unit :=
  if tokens.isEmpty then .error .emptyTransitions
  else if source.isEmpty then .error .emptySource
  else batch.finish

/-- Matches tokens by `matchTokens`, if `admit?` lets them pass. -/
def run (tokens : List Token) (batch : Batch) (source : Value) :
    List Record × Except Failure Applied :=
  match admit? tokens batch source with
  | .error f => ([], .error f)
  | .ok () =>
    let (log, result) := matchTokens tokens source
    match result with
    | .error f => (log, .error f)
    | .ok results => (log ++ [.produced tokens.length results.size], .ok ⟨tokens, results⟩)

/-- Applies transitions that are given as loosely typed values: `readEntries`, then `run`. -/
def applyValues (transitions : List Value) (source : Value) :
    List Record × Except Failure Applied :=
  let (log, result) := readEntries .empty transitions
  match result with
  | .error m => (log, .error (.malformed m))
  | .ok (tokens, batch) =>
    let (log', result) := run tokens batch source
    (log ++ log', result)

/-- Reads expressions one after the other by `Batch.read`. -/
def readAll (b : Batch) : List String → List Token × Batch
  | [] => ([], b)
  | e :: es =>
    let (t, b) := b.read e
    let (ts, b) := readAll b es
    (t :: ts, b)

/-- Applies transitions that are given as expressions: `readAll`, then `run`. -/
def apply (transitions : List String) (source : Value) : List Record × Except Failure Applied :=
  let (tokens, batch) := readAll .empty transitions
  let (log, result) := run tokens batch source
  (tokens.map .parsed ++ log, result)

end Extraction.Transition
