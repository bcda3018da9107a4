import Extraction.Decimal.Digits
import Extraction.Document.Value

/-!
# Extraction.Transition.Walk

The pre-order walk over the nodes below the root of a document: a node comes before
its children, entries come in stored order, items by index.

A `Walk` is a stack of the children still to be visited on each open level, and
`Walk.next` takes one step; `Walk.visits` is the sequence of all steps.

* `weight_next` — a step leaves one node less to visit, so a walk ends;
* `visits_of_next_eq_some` — the sequence begins with the node of the next step.
-/

namespace Extraction.Transition

open Document

/-- The key of a node in its parent. -/
inductive Key where
  | name (s : String)
  | index (i : Nat)
deriving DecidableEq

/-- Does a key match a segment of a path?  An index matches its canonical decimal text. -/
def Key.matches : Key → String → Bool
  | name s, segment => s == segment
  | index i, segment => segment == Decimal.text i

/-- The text of a key. -/
def Key.text : Key → String
  | name s => s
  | index i => Decimal.text i

/-- A node with its key and depth; the direct children of the root are at depth zero. -/
structure Visit where
  key : Key
  value : Value
  depth : Nat

/-- Items with their indices, counted from `i`. -/
def indexed (i : Nat) : List Value → List (Key × Value)
  | [] => []
  | v :: vs => (.index i, v) :: indexed (i + 1) vs

/-- Entries with their names as keys. -/
def named : List (String × Value) → List (Key × Value)
  | [] => []
  | (k, v) :: es => (.name k, v) :: named es

/-- The children of a value with their keys. -/
def children : Value → List (Key × Value)
  | .object es => named es
  | .array xs => indexed 0 xs
  | _ => []

/-- Only containers have children. -/
theorem children_of_isContainer_eq_false {v : Value} (h : v.isContainer = false) :
    children v = [] := by
  cases v with
  | object es => cases h
  | array xs => cases h
  | _ => rfl

/-- The `children` of a node that are still to be visited, and their depth. -/
structure Frame where
  depth : Nat
  rest : List (Key × Value)

/-- An unfinished walk: the `Frame` of the innermost open node comes first. -/
structure Walk where
  stack : List Frame

namespace Walk

/-- The level that a node opens.  Only a container opens one, even if nothing is in it. -/
def opened (depth : Nat) (v : Value) : List Frame :=
  if v.isContainer then [⟨depth, children v⟩] else []

/-- The walk over everything below a root: the level that the root has `opened`. -/
def start (root : Value) : Walk := ⟨opened 0 root⟩

/-- One step on a stack; finished levels are left on the way, and the node answered has its level
`opened`. -/
def step : List Frame → Option (Visit × List Frame)
  | [] => none
  | ⟨_, []⟩ :: stack => step stack
  | ⟨depth, (key, value) :: rest⟩ :: stack =>
    some (⟨key, value, depth⟩, opened (depth + 1) value ++ ⟨depth, rest⟩ :: stack)

/-- The next node, and the walk after it, by one `step`. -/
def next (w : Walk) : Option (Visit × Walk) := (step w.stack).map fun r => (r.1, ⟨r.2⟩)

/-! ## the number of nodes left -/

/-- The number of nodes of children and of all that is below them, the `size` of each. -/
def sizeOfChildren : List (Key × Value) → Nat
  | [] => 0
  | (_, v) :: cs => v.size + sizeOfChildren cs

/-- The number of nodes a stack still has to visit. -/
def sizeOfStack : List Frame → Nat
  | [] => 0
  | f :: stack => sizeOfChildren f.rest + sizeOfStack stack

def weight (w : Walk) : Nat := sizeOfStack w.stack

theorem sizeOfChildren_indexed (i : Nat) (xs : List Value) :
    sizeOfChildren (indexed i xs) = Value.sizeItems xs := by
  induction xs generalizing i with
  | nil => rfl
  | cons v vs ih => simp [indexed, sizeOfChildren, Value.sizeItems, ih]

theorem sizeOfChildren_named (es : List (String × Value)) :
    sizeOfChildren (named es) = Value.sizeEntries es := by
  induction es with
  | nil => rfl
  | cons e es ih => simp [named, sizeOfChildren, Value.sizeEntries, ih]

/-- A document has one node more than its children have together. -/
theorem size_eq_children (v : Value) : v.size = sizeOfChildren (children v) + 1 := by
  cases v with
  | object es => simp [Value.size, children, sizeOfChildren_named, Nat.add_comm]
  | array xs => simp [Value.size, children, sizeOfChildren_indexed, Nat.add_comm]
  | _ => rfl

theorem sizeOfStack_append (stack stack' : List Frame) :
    sizeOfStack (stack ++ stack') = sizeOfStack stack + sizeOfStack stack' := by
  induction stack with
  | nil => simp [sizeOfStack]
  | cons f stack ih => simp [sizeOfStack, ih, Nat.add_assoc]

/-- A node that opens no level has no children. -/
theorem sizeOfStack_opened (depth : Nat) (v : Value) :
    sizeOfStack (opened depth v) = sizeOfChildren (children v) := by
  rw [opened]
  split
  · rfl
  · next h =>
    rw [children_of_isContainer_eq_false (Bool.eq_false_iff.2 h)]
    rfl

/-- A step takes one node off the stack. -/
theorem sizeOfStack_step {stack stack' : List Frame} {v : Visit}
    (h : step stack = some (v, stack')) : sizeOfStack stack = sizeOfStack stack' + 1 := by
  fun_induction step stack with
  | case1 => simp at h
  | case2 _ stack ih => simpa [sizeOfStack, sizeOfChildren] using ih h
  | case3 depth key value rest stack =>
    simp only [Option.some.injEq, Prod.mk.injEq] at h
    rw [← h.2, sizeOfStack_append, sizeOfStack_opened]
    simp only [sizeOfStack, sizeOfChildren, size_eq_children value]
    omega

/-- A walk gets lighter with each node it answers, and so it ends. -/
theorem weight_next {w w' : Walk} {v : Visit} (h : w.next = some (v, w')) :
    w.weight = w'.weight + 1 := by
  simp only [next, Option.map_eq_some_iff, Prod.mk.injEq] at h
  obtain ⟨⟨v', stack'⟩, h, -, rfl⟩ := h
  exact sizeOfStack_step h

/-! ## the sequence of visits -/

/-- All visits that a walk still makes, in their order: `next` as long as there is one. -/
def visits (w : Walk) : List Visit :=
  match _ : w.next with
  | none => []
  | some (v, w') => v :: visits w'
termination_by w.weight
decreasing_by have := weight_next ‹_›; omega

/-- A walk with no `next` node visits nothing more. -/
theorem visits_of_next_eq_none {w : Walk} (h : w.next = none) : w.visits = [] := by
  rw [visits]; split <;> simp_all

/-- A walk visits its `next` node, and then what is left of it. -/
theorem visits_of_next_eq_some {w w' : Walk} {v : Visit} (h : w.next = some (v, w')) :
    w.visits = v :: w'.visits := by
  rw [visits]; split <;> simp_all

end Walk

/-- The `visits` of the walk from a root: the nodes below it in pre-order. -/
def preOrder (root : Value) : List Visit := (Walk.start root).visits

end Extraction.Transition
