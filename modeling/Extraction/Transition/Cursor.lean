import Extraction.Transition.Walk

/-!
# Extraction.Transition.Cursor

Following a path through the nodes of a walk.  The cursor looks for one segment at a
time, at the depth of its place in the path, and once a segment has matched it only
considers nodes one level deeper than that match.  It never returns to a node it has
passed.
-/

namespace Extraction.Transition

open Document

/-- How far a path has been followed. -/
structure Cursor where
  path : List String
  /-- The place in the path of the segment that is looked for. -/
  searchingFor : Nat
  /-- The depth of the last match, before the first match that of the first node offered. -/
  previousDepth : Option Nat
  /-- A segment has matched, so that only the next level counts. -/
  inSearchMode : Bool

/-- What a cursor makes of a node that it is offered, see `Cursor.offer`. -/
inductive Offer where
  /-- The node is the one that the path leads to. -/
  | reached
  /-- The node carries a segment on the way. -/
  | matched (segment : String) (next : Cursor)
  | passed (next : Cursor)

namespace Cursor

def start (path : List String) : Cursor := ⟨path, 0, none, false⟩

/-- Offers a node to a cursor. -/
def offer (c : Cursor) (v : Visit) : Offer :=
  let previous := c.previousDepth.getD v.depth
  let c := { c with previousDepth := some previous }
  if c.inSearchMode && v.depth != previous + 1 then .passed c
  else
    match c.path[c.searchingFor]? with
    | none => .passed c
    | some segment =>
      if v.depth != c.searchingFor || !v.key.matches segment then .passed c
      else if v.depth + 1 = c.path.length then .reached
      else .matched segment ⟨c.path, c.searchingFor + 1, some v.depth, true⟩

/-- A segment that matched on the way, and its depth. -/
structure Step where
  segment : String
  depth : Nat
deriving DecidableEq

/-- Makes an `offer` of one node after the other, up to the one that the path leads to. Answers
the matches on the way and the node. -/
def follow (c : Cursor) : List Visit → List Step × Option Visit
  | [] => ([], none)
  | v :: vs =>
    match c.offer v with
    | .reached => ([], some v)
    | .matched segment next =>
      let (steps, found) := next.follow vs
      (⟨segment, v.depth⟩ :: steps, found)
    | .passed next => next.follow vs

end Cursor

/-- The matches on the way along a path from a root, and the node at its end: what the cursor
makes of the nodes in `preOrder`. -/
def trace (path : List String) (root : Value) : List Cursor.Step × Option Visit :=
  (Cursor.start path).follow (preOrder root)

/-- The value of the node at the end of the `trace` of a path. -/
def find (path : List String) (root : Value) : Option Value :=
  (trace path root).2.map Visit.value

end Extraction.Transition
