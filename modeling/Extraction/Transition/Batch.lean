import Extraction.Transition.Error

/-!
# Extraction.Transition.Batch

Reading several expressions one after the other.  A batch is handed on from one part of an
expression to the next and from one expression to the next, and each part notes its faults
in it, so that those of all expressions can be told together.  An entry that is no
expression at all is refused at once.
-/

namespace Extraction.Transition

open Document

/-- The problems found so far, in the order in which they were found. -/
structure Batch where
  problems : List Problem

namespace Batch

def empty : Batch := ⟨[]⟩

/-- Notes a fault of an expression behind the `problems` that are there. -/
def record (b : Batch) (expression : String) (f : Fault) : Batch :=
  ⟨b.problems ++ [⟨expression, f⟩]⟩

/-- Reads the `Expression.path` of an expression, and notes if a segment is empty. -/
def readPath (b : Batch) (expression : String) : List String × Batch :=
  let path := Expression.path expression.toList
  (path.map String.ofList,
    bif path.any List.isEmpty then b.record expression .emptySegment else b)

/-- Reads names of checks one after the other.  `seen` are the checks that earlier names
denote: of several names of one check only the first counts. -/
def readNames (b : Batch) (expression : String) (seen : List Assertion) :
    List String → List Assertion × Batch
  | [] => ([], b)
  | name :: names =>
    if name = "" then (b.record expression .emptyAssertion).readNames expression seen names
    else
      match Assertion.lookup name with
      | none => (b.record expression (.unknownAssertion name)).readNames expression seen names
      | some a =>
        if a ∈ seen then b.readNames expression seen names
        else
          let (checks, b) := b.readNames expression (a :: seen) names
          (a :: checks, b)

/-- Reads the checks of an expression by `readNames`, in the order of `Expression.names`. -/
def readAssertions (b : Batch) (expression : String) : List Assertion × Batch :=
  b.readNames expression [] (Expression.names expression.toList)

/-- Reads the alias of an expression, which has to be the only one. -/
def readAlias (b : Batch) (expression : String) : Option String × Batch :=
  match Text.split Expression.aliasDelimiter expression.toList with
  | [_] => (none, b)
  | [_, name] =>
    if name.isEmpty then (none, b.record expression .emptyAlias)
    else (some (String.ofList name), b)
  | _ => (none, b.record expression .severalAliases)

/-- Reads an expression: `readPath`, `readAssertions`, `readAlias`, each handing on the batch.
Faults never stop the reading: a token comes out in any case, without the parts at fault. -/
def read (b : Batch) (expression : String) : Token × Batch :=
  let (path, b) := b.readPath expression
  let (assertions, b) := b.readAssertions expression
  let (aliasName, b) := b.readAlias expression
  (⟨expression, path, assertions, aliasName⟩, b)

/-- Reads an entry, which has to be a string: an expression for `read`. -/
def readValue (b : Batch) : Value → Except Malformed (Token × Batch)
  | .string expression => .ok (b.read expression)
  | .null => .error .null
  | v => .error (if v.isScalar then .scalar v.display else .other)

/-- Succeeds if no problem was found, and else tells all of them. -/
def finish (b : Batch) : Except Failure Unit :=
  if b.problems.isEmpty then .ok () else .error (.problems b.problems)

end Batch

/-- The token of an expression that is read alone, from an `empty` batch, and has to be free of
faults. -/
def readExpression (expression : String) : Except Failure Token :=
  let (token, batch) := Batch.empty.read expression
  batch.finish.map fun _ => token

end Extraction.Transition
