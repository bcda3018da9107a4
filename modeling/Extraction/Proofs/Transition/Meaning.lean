import Extraction.Transition.Batch

/-!
# Extraction.Proofs.Transition.Meaning

What an expression says, whatever was read before it.

A batch is handed through the three scans of an expression.  None of them looks at what the
batch holds: a scan answers the same whatever the batch, and all it does to it is to put the
faults of its own part behind the problems that are there,

```
b ─ readPath → b ++ faults of the path ─ readAssertions → … ─ readAlias → b ++ all faults
```

so that the token and the faults of an expression are functions of its text:

* `readPath_eq`, `readNames_eq`, `readAlias_eq` — one scan, what it answers and what it notes;
* `read_eq` — all of them, one after the other.
-/

namespace Extraction.Transition

namespace Expression

/-! ## the parts of an expression -/

/-- The faults of a path. -/
def pathFaults (path : List (List Char)) : List Fault :=
  if path.any List.isEmpty then [.emptySegment] else []

/-- The checks that names denote, each check where its first name stands.  `seen` are
the checks that earlier names denote. -/
def resolve (seen : List Assertion) : List String → List Assertion
  | [] => []
  | n :: ns =>
    match Assertion.lookup n with
    | none => resolve seen ns
    | some a => if a ∈ seen then resolve seen ns else a :: resolve (a :: seen) ns

/-- The fault of a single name, if it has one. -/
def nameFault (name : String) : Option Fault :=
  if name = "" then some .emptyAssertion
  else if (Assertion.lookup name).isNone then some (.unknownAssertion name)
  else none

/-- The alias of an expression and its faults. -/
def readAlias (cs : List Char) : Option String × List Fault :=
  match Text.split aliasDelimiter cs with
  | [_] => (none, [])
  | [_, name] => if name.isEmpty then (none, [.emptyAlias]) else (some (String.ofList name), [])
  | _ => (none, [.severalAliases])

/-- The token that an expression denotes. -/
def token (expression : String) : Token :=
  let cs := expression.toList
  { expression
    path := (path cs).map String.ofList
    assertions := resolve [] (names cs)
    aliasName := (readAlias cs).1 }

/-- The faults of an expression: of the path, then of the assertions, then of the alias. -/
def faults (expression : String) : List Fault :=
  let cs := expression.toList
  pathFaults (path cs) ++ (names cs).filterMap nameFault ++ (readAlias cs).2

/-- The empty name denotes no check. -/
theorem lookup_empty : Assertion.lookup "" = none := by decide

end Expression

namespace Batch

open Expression (pathFaults nameFault resolve)

/-! ## one scan -/

/-- A batch with faults of an expression noted behind its problems. -/
def noting (b : Batch) (e : String) (fs : List Fault) : Batch := ⟨b.problems ++ fs.map (⟨e, ·⟩)⟩

variable (b : Batch) (e : String)

@[simp] theorem noting_nil : b.noting e [] = b := by simp [noting]

/-- What was noted earlier stands first. -/
@[simp] theorem noting_noting (fs gs : List Fault) :
    (b.noting e fs).noting e gs = b.noting e (fs ++ gs) := by
  simp [noting]

/-- `record` notes a single fault. -/
theorem record_eq (f : Fault) : b.record e f = b.noting e [f] := rfl

/-- Whatever the batch, `readPath` answers the path, and notes the faults of the path. -/
theorem readPath_eq :
    b.readPath e = ((Expression.path e.toList).map String.ofList,
      b.noting e (pathFaults (Expression.path e.toList))) := by
  simp only [readPath, pathFaults, Bool.cond_eq_ite]
  split
  · rfl
  · rw [noting_nil]

/-- Whatever the batch, `readNames` answers the checks that `resolve` picks, and notes the
faults of the names in their order. -/
theorem readNames_eq (seen : List Assertion) (ns : List String) :
    b.readNames e seen ns = (resolve seen ns, b.noting e (ns.filterMap nameFault)) := by
  induction ns generalizing b seen with
  | nil => simp [readNames, resolve]
  | cons n ns ih =>
      rw [readNames, resolve]
      by_cases hn : n = ""
      · subst hn
        have hfault : nameFault "" = some .emptyAssertion := rfl
        rw [if_pos rfl, ih, record_eq, noting_noting, Expression.lookup_empty,
          List.filterMap_cons_some hfault]
        rfl
      · rw [if_neg hn]
        cases ha : Assertion.lookup n with
        | none =>
            have hfault : nameFault n = some (.unknownAssertion n) := by simp [nameFault, hn, ha]
            dsimp only
            rw [ih, record_eq, noting_noting, List.filterMap_cons_some hfault]
            rfl
        | some a =>
            have hfault : nameFault n = none := by simp [nameFault, hn, ha]
            rw [List.filterMap_cons_none hfault]
            dsimp only
            split
            · rw [ih]
            · rw [ih]

/-- Whatever the batch, `readAlias` answers the alias, and notes its faults. -/
theorem readAlias_eq :
    b.readAlias e =
      ((Expression.readAlias e.toList).1, b.noting e (Expression.readAlias e.toList).2) := by
  rw [readAlias, Expression.readAlias]
  generalize Text.split Expression.aliasDelimiter e.toList = parts
  match parts with
  | [] => rfl
  | [_] => dsimp only; rw [noting_nil]
  | [_, name] =>
      dsimp only
      split
      · rfl
      · rw [noting_nil]
  | _ :: _ :: _ :: _ => rfl

/-! ## an expression -/

/-- The problems of an expression. -/
def problemsOf (expression : String) : List Problem :=
  (Expression.faults expression).map fun f => ⟨expression, f⟩

/-- Whatever the batch, `read` answers the token of the expression, and puts its problems
behind those of the batch. -/
theorem read_eq : b.read e = (Expression.token e, ⟨b.problems ++ problemsOf e⟩) := by
  rw [read, readPath_eq]
  dsimp only
  rw [readAssertions, readNames_eq]
  dsimp only
  rw [readAlias_eq, noting_noting, noting_noting, ← List.append_assoc]
  rfl

end Batch

end Extraction.Transition
