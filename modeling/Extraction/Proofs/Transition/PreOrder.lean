import Extraction.Transition.Walk

/-!
# Extraction.Proofs.Transition.PreOrder

The walk over a document as a recursion on the document.

`below d v` lists the nodes below `v` with its children at depth `d`: each child is
followed at once by everything below it.  A walk keeps a stack of children that are
still to be visited, and

```
visits ⟨f₁ :: f₂ :: …⟩ = nodes of f₁ ++ nodes of f₂ ++ …
```

so that the walk from a root visits just `below 0 root`:

* `below_eq_flatMap` — the recursion in terms of the children and their subtrees;
* `le_depth_of_mem_below` — nodes below a value are at the depth of its children or deeper;
* `visits_eq_pending` — a walk visits what its stack still holds;
* `preOrder_eq_below` — the walk from a root is the recursive traversal.
-/

namespace Extraction.Transition

open Document

/-! ## the recursive traversal -/

mutual
/-- The nodes below a value in pre-order, where its children are at depth `d`. -/
def below (d : Nat) : Value → List Visit
  | .object es => belowEntries d es
  | .array xs => belowItems d 0 xs
  | _ => []

def belowEntries (d : Nat) : List (String × Value) → List Visit
  | [] => []
  | (k, v) :: es => ⟨.name k, v, d⟩ :: below (d + 1) v ++ belowEntries d es

/-- The items of a list with all below them; the first item has index `i`. -/
def belowItems (d i : Nat) : List Value → List Visit
  | [] => []
  | v :: xs => ⟨.index i, v, d⟩ :: below (d + 1) v ++ belowItems d (i + 1) xs
end

/-- A child at depth `d`, followed by all nodes below it. -/
def subtree (d : Nat) (c : Key × Value) : List Visit := ⟨c.1, c.2, d⟩ :: below (d + 1) c.2

/-- Below an object stand the subtrees of its entries. -/
theorem belowEntries_eq_flatMap (d : Nat) (es : List (String × Value)) :
    belowEntries d es = (named es).flatMap (subtree d) := by
  induction es with
  | nil => rfl
  | cons e es ih =>
      obtain ⟨k, v⟩ := e
      simp [belowEntries, named, subtree, ih]

/-- Below a list stand the subtrees of its items. -/
theorem belowItems_eq_flatMap (d i : Nat) (xs : List Value) :
    belowItems d i xs = (indexed i xs).flatMap (subtree d) := by
  induction xs generalizing i with
  | nil => rfl
  | cons v vs ih => simp [belowItems, indexed, subtree, ih]

/-- The nodes below a value are the subtrees of its children, one after the other. -/
theorem below_eq_flatMap (d : Nat) (v : Value) : below d v = (children v).flatMap (subtree d) := by
  cases v with
  | object es => exact belowEntries_eq_flatMap d es
  | array xs => exact belowItems_eq_flatMap d 0 xs
  | _ => rfl

/-- A child, all that is below it, and what is before and behind these nodes. -/
theorem below_of_children_eq {v : Value} {cs ds : List (Key × Value)} {c : Key × Value}
    (h : children v = cs ++ c :: ds) (d : Nat) :
    below d v = cs.flatMap (subtree d) ++
      ⟨c.1, c.2, d⟩ :: (below (d + 1) c.2 ++ ds.flatMap (subtree d)) := by
  rw [below_eq_flatMap, h, List.flatMap_append, List.flatMap_cons, subtree, List.cons_append]

/-! ## induction over the children -/

/-- `sizeOfChildren` counts the nodes of each child. -/
theorem size_le_sizeOfChildren {c : Key × Value} {cs : List (Key × Value)} (h : c ∈ cs) :
    c.2.size ≤ Walk.sizeOfChildren cs := by
  induction cs with
  | nil => simp at h
  | cons e es ih =>
      obtain ⟨k, v⟩ := e
      simp only [Walk.sizeOfChildren]
      rcases List.mem_cons.1 h with rfl | h
      · exact Nat.le_add_right _ _
      · exact Nat.le_trans (ih h) (Nat.le_add_left _ _)

/-- A child has fewer nodes than its parent. -/
theorem size_lt_of_mem_children {c : Key × Value} {v : Value} (h : c ∈ children v) :
    c.2.size < v.size := by
  have := size_le_sizeOfChildren h
  rw [Walk.size_eq_children v]
  omega

/-- What holds of a value whenever it holds of its children holds of every value. -/
@[elab_as_elim]
theorem childInduction {P : Value → Prop} (step : ∀ v, (∀ c ∈ children v, P c.2) → P v)
    (v : Value) : P v := by
  induction hn : v.size using Nat.strongRecOn generalizing v with
  | _ n ih =>
      subst hn
      exact step v fun c hc => ih c.2.size (size_lt_of_mem_children hc) c.2 rfl

/-- Nodes below a document lie no higher than its children. -/
theorem le_depth_of_mem_below {d : Nat} {v : Value} {x : Visit} (h : x ∈ below d v) :
    d ≤ x.depth := by
  induction v using childInduction generalizing d with
  | step v ih =>
      rw [below_eq_flatMap, List.mem_flatMap] at h
      obtain ⟨c, hc, hx⟩ := h
      rcases List.mem_cons.1 hx with rfl | hx
      · exact Nat.le_refl d
      · have := ih c hc hx
        omega

/-! ## the walk -/

namespace Walk

/-- The nodes that a stack still has to visit, in their order. -/
def pending (stack : List Frame) : List Visit :=
  stack.flatMap fun f => f.rest.flatMap (subtree f.depth)

/-- What is `pending` on frames above others comes first. -/
theorem pending_append (stack stack' : List Frame) :
    pending (stack ++ stack') = pending stack ++ pending stack' := List.flatMap_append

/-- The level that a node opens holds everything below it. -/
theorem pending_opened (d : Nat) (v : Value) : pending (opened d v) = below d v := by
  rw [below_eq_flatMap, opened]
  split
  · exact List.flatMap_singleton _ _
  · next h =>
    rw [children_of_isContainer_eq_false (Bool.eq_false_iff.2 h)]
    rfl

/-- A stack that `step` cannot go on from has nothing `pending`. -/
theorem pending_of_step_eq_none {stack : List Frame} (h : step stack = none) :
    pending stack = [] := by
  fun_induction step stack with
  | case1 => rfl
  | case2 d stack ih => simpa [pending] using ih h
  | case3 => simp at h

/-- A step visits the first node that is pending and leaves the others. -/
theorem pending_of_step_eq_some {stack stack' : List Frame} {v : Visit}
    (h : step stack = some (v, stack')) : pending stack = v :: pending stack' := by
  fun_induction step stack with
  | case1 => simp at h
  | case2 d stack ih => simpa [pending] using ih h
  | case3 d k x rest stack =>
      obtain ⟨rfl, rfl⟩ := Prod.mk.inj (Option.some.inj h)
      rw [pending_append, pending_opened]
      simp [pending, subtree]

/-- A walk visits what is `pending` on its stack, by induction on its weight. -/
theorem visits_eq_pending (w : Walk) : w.visits = pending w.stack := by
  induction hn : w.weight using Nat.strongRecOn generalizing w with
  | _ n ih =>
      cases hw : step w.stack with
      | none =>
          have hnext : w.next = none := by simp [next, hw]
          rw [visits_of_next_eq_none hnext, pending_of_step_eq_none hw]
      | some r =>
          obtain ⟨v, stack'⟩ := r
          have hnext : w.next = some (v, ⟨stack'⟩) := by simp [next, hw]
          have hlt := weight_next hnext
          rw [visits_of_next_eq_some hnext, pending_of_step_eq_some hw,
            ih _ (by omega) ⟨stack'⟩ rfl]

end Walk

/-- The walk from a root visits its nodes as the recursion on the document lists them. -/
theorem preOrder_eq_below (root : Value) : preOrder root = below 0 root := by
  rw [preOrder, Walk.visits_eq_pending]
  exact Walk.pending_opened 0 root

end Extraction.Transition
