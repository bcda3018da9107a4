import Extraction.Proofs.Transition.Descent
import Extraction.Proofs.Transition.Position
import Mathlib.Data.List.Forall2

/-!
# Extraction.Proofs.Transition.Shape

The search for a path looks at keys and containers only, never at what stands at a leaf.

Two documents of the same shape are walked in step: at each position of the pre-order stand
two nodes with the same key at the same depth, and these have the same shape again.  A cursor
asks a node for nothing but key and depth, so it takes and passes the same positions:

* `SameShape` — documents that differ at their leaves only;
* `forall₂_below` — such documents are walked in step;
* `seekAt?_of_forall₂` — a search of nodes that correspond stops at the same position;
* `find_of_sameShape` — the same is found in both, or nothing in either.
-/

namespace Extraction.Transition

open Document

/-! ## documents of the same shape -/

/-- The documents have the same containers in the same places, objects with the same keys in the
same order and lists of the same length.  At leaves they may differ in any way. -/
inductive SameShape : Value → Value → Prop
  | object {es fs : List (String × Value)} : Entries.keys es = Entries.keys fs →
      (∀ (i : Nat) (e f : String × Value), es[i]? = some e → fs[i]? = some f →
        SameShape e.2 f.2) →
      SameShape (.object es) (.object fs)
  | array {xs ys : List Value} : xs.length = ys.length →
      (∀ (i : Nat) (x y : Value), xs[i]? = some x → ys[i]? = some y → SameShape x y) →
      SameShape (.array xs) (.array ys)
  | leaf {v w : Value} : v.isContainer = false → w.isContainer = false → SameShape v w

theorem getElem?_named (es : List (String × Value)) (i : Nat) :
    (named es)[i]? = es[i]?.map fun e => (.name e.1, e.2) := by
  rw [named_eq_map, List.getElem?_map]

theorem getElem?_indexed (n : Nat) (xs : List Value) (i : Nat) :
    (indexed n xs)[i]? = xs[i]?.map fun x => (.index (n + i), x) := by
  induction xs generalizing n i with
  | nil => rfl
  | cons x xs ih =>
      cases i with
      | zero => rfl
      | succ i =>
          rw [indexed, List.getElem?_cons_succ, List.getElem?_cons_succ, ih]
          simp only [Nat.add_assoc, Nat.add_comm 1 i]

theorem length_indexed (n : Nat) (xs : List Value) : (indexed n xs).length = xs.length := by
  induction xs generalizing n with
  | nil => rfl
  | cons x xs ih => rw [indexed, List.length_cons, List.length_cons, ih]

/-! ## the walks over two documents -/

/-- Nodes with the same key at the same depth, and with the same shape below them. -/
structure Visit.Alike (u v : Visit) : Prop where
  key : u.key = v.key
  depth : u.depth = v.depth
  shape : SameShape u.value v.value

/-- Lists of lists that are related place by place are related when put together. -/
theorem forall₂_flatMap {α β : Type} {r : β → β → Prop} {f : α → List β} {xs ys : List α}
    (hlength : xs.length = ys.length)
    (h : ∀ (i : Nat) (x y : α), xs[i]? = some x → ys[i]? = some y → List.Forall₂ r (f x) (f y)) :
    List.Forall₂ r (xs.flatMap f) (ys.flatMap f) := by
  induction xs generalizing ys with
  | nil =>
      obtain rfl : ys = [] := List.eq_nil_of_length_eq_zero hlength.symm
      exact .nil
  | cons x xs ih =>
      obtain ⟨y, ys, rfl⟩ := List.exists_cons_of_length_eq_add_one hlength.symm
      rw [List.flatMap_cons, List.flatMap_cons]
      have hrest : List.Forall₂ r (xs.flatMap f) (ys.flatMap f) :=
        ih (Nat.succ.inj hlength) fun i => h (i + 1)
      exact List.rel_append (h 0 x y rfl rfl) hrest

/-- Children that correspond, with all that is below them, are walked in step. -/
theorem forall₂_subtree {d : Nat} {k : Key} {x y : Value} (h : SameShape x y)
    (hbelow : List.Forall₂ Visit.Alike (below (d + 1) x) (below (d + 1) y)) :
    List.Forall₂ Visit.Alike (subtree d (k, x)) (subtree d (k, y)) :=
  .cons ⟨rfl, rfl, h⟩ hbelow

/-- Documents of the `SameShape` have nodes that are `Alike`, in the same order. -/
theorem forall₂_below {v w : Value} (h : SameShape v w) (d : Nat) :
    List.Forall₂ Visit.Alike (below d v) (below d w) := by
  induction h generalizing d with
  | @object es fs hkeys hvalues ih =>
      rw [below_eq_flatMap, below_eq_flatMap]
      have hlength : es.length = fs.length := by
        simpa [Entries.keys] using congrArg List.length hkeys
      refine forall₂_flatMap (by simp [children, named_eq_map, hlength]) fun i c e hc he => ?_
      rw [children, getElem?_named, Option.map_eq_some_iff] at hc he
      obtain ⟨⟨k, x⟩, hx, rfl⟩ := hc
      obtain ⟨⟨l, y⟩, hy, rfl⟩ := he
      obtain rfl : k = l := by
        have hkey : (Entries.keys es)[i]? = (Entries.keys fs)[i]? := by rw [hkeys]
        simpa [Entries.keys, hx, hy] using hkey
      exact forall₂_subtree (hvalues i _ _ hx hy) (ih i _ _ hx hy (d + 1))
  | @array xs ys hlength hvalues ih =>
      rw [below_eq_flatMap, below_eq_flatMap]
      refine forall₂_flatMap (by simp [children, length_indexed, hlength]) fun i c e hc he => ?_
      rw [children, getElem?_indexed, Option.map_eq_some_iff] at hc he
      obtain ⟨x, hx, rfl⟩ := hc
      obtain ⟨y, hy, rfl⟩ := he
      exact forall₂_subtree (hvalues i x y hx hy) (ih i x y hx hy (d + 1))
  | leaf hv hw =>
      rw [below_eq_flatMap, below_eq_flatMap, children_of_isContainer_eq_false hv,
        children_of_isContainer_eq_false hw]
      exact .nil

/-! ## the searches in two documents -/

/-- Nodes that are `Alike` carry the same segments. -/
theorem Visit.Alike.carries_eq {u v : Visit} (h : u.Alike v) (path : List String) (i : Nat) :
    carries path i u = carries path i v := by
  rw [carries, carries, h.key, h.depth]

/-- `seekAt?` stops at the same position among nodes that are `Alike`. -/
theorem seekAt?_of_forall₂ {us vs : List Visit} (h : List.Forall₂ Visit.Alike us vs)
    (path : List String) (i : Nat) : seekAt? path i us = seekAt? path i vs := by
  induction h generalizing i with
  | nil => rfl
  | cons hhead _ ih => rw [seekAt?, seekAt?, hhead.carries_eq, ih i, ih (i + 1)]

/-- **Only keys and shape count**: in two documents of the same shape a path leads to nodes at
the same position of the pre-order, or leads nowhere in either. -/
theorem find_of_sameShape {v w : Value} (h : SameShape v w) (path : List String) :
    (find path v = none ∧ find path w = none) ∨
    ∃ n x y, position? path v = some n ∧ position? path w = some n ∧
      (preOrder v)[n]? = some x ∧ (preOrder w)[n]? = some y ∧
      find path v = some x.value ∧ find path w = some y.value ∧ x.Alike y := by
  have hbelow := forall₂_below h 0
  have hposition : position? path v = position? path w := by
    rw [position?_eq_seekAt?, position?_eq_seekAt?, seekAt?_of_forall₂ hbelow]
  cases hv : position? path v with
  | none =>
      left
      rw [hv] at hposition
      exact ⟨find_eq_none_iff_position?.2 hv, find_eq_none_iff_position?.2 hposition.symm⟩
  | some n =>
      right
      rw [hv] at hposition
      obtain ⟨x, hx, hfind⟩ := exists_visit_of_position? hv
      obtain ⟨y, hy, hfind'⟩ := exists_visit_of_position? hposition.symm
      refine ⟨n, x, y, rfl, hposition.symm, hx, hy, hfind, hfind', ?_⟩
      rw [preOrder_eq_below] at hx hy
      obtain ⟨hlt, rfl⟩ := List.getElem?_eq_some_iff.1 hx
      obtain ⟨hlt', rfl⟩ := List.getElem?_eq_some_iff.1 hy
      exact hbelow.get hlt hlt'

/-- The document `detour` with other leaves. -/
def otherLeaves : Value :=
  .object
    [("a", .object [("b", .object [("z", .boolean true)])]),
      ("q", .object [("b", .object [("c", .object [("d", .number (.int 7))])])])]

theorem SameShape.nil : SameShape (.object []) (.object []) := .object rfl (by simp)

/-- Objects with one more entry of the same key and shape have the `SameShape`. -/
theorem SameShape.cons {k : String} {v w : Value} {es fs : List (String × Value)}
    (h : SameShape v w) (hrest : SameShape (.object es) (.object fs)) :
    SameShape (.object ((k, v) :: es)) (.object ((k, w) :: fs)) := by
  cases hrest with
  | object hkeys hvalues =>
      refine .object (congrArg (List.cons k) hkeys) fun i e f he hf => ?_
      cases i with
      | zero =>
          obtain rfl : (k, v) = e := Option.some.inj he
          obtain rfl : (k, w) = f := Option.some.inj hf
          exact h
      | succ i => exact hvalues i e f he hf
  | leaf h => contradiction

theorem sameShape_detour : SameShape detour otherLeaves :=
  .cons (.cons (.cons (.leaf rfl rfl) .nil) .nil)
    (.cons (.cons (.cons (.cons (.leaf rfl rfl) .nil) .nil) .nil) .nil)

/-- In `detour` with other leaves the same path stops at the same position, for a value of the
same shape. -/
theorem find_of_sameShape_detour :
    SameShape detour otherLeaves ∧
      ∃ n y, position? ["a", "b", "c"] detour = some n ∧
        position? ["a", "b", "c"] otherLeaves = some n ∧
        (preOrder otherLeaves)[n]? = some y ∧
        find ["a", "b", "c"] otherLeaves = some y.value ∧
        SameShape (.object [("d", .string "far")]) y.value := by
  refine ⟨sameShape_detour, ?_⟩
  rcases find_of_sameShape sameShape_detour ["a", "b", "c"] with
    ⟨hnone, -⟩ | ⟨n, x, y, hx, hy, -, hvisit, hfar, hfind, halike⟩
  · rw [find_detour] at hnone
    contradiction
  · rw [find_detour] at hfar
    rw [Option.some.inj hfar]
    exact ⟨n, y, hx, hy, hvisit, hfind, halike.shape⟩

end Extraction.Transition
