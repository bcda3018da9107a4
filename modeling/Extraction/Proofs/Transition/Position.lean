import Extraction.Proofs.Transition.Place
import Extraction.Proofs.Transition.Seek

/-!
# Extraction.Proofs.Transition.Position

Which node the search for a path stops at, and not only which value it has.

The same value may stand in a document more than once.  `Cursor.reach?` counts the nodes that
a cursor passes before it comes to its own, so `position?` is the position in the pre-order of
the node that `find` answers, and `FoundAt` names that node by its place in the document:

* `find_eq_position?` — `find` answers the value of the node at that position;
* `position?_eq_seekAt?` — the position told by the place in the path alone;
* `find_eq_some_iff_foundAt` — what `find` answers is found at one place;
* `FoundAt.exists_visit` — the node that is found, with its key, its depth and what is below it.
-/

namespace Extraction.Transition

open Document

/-! ## positions -/

/-- The position in the pre-order of a document of the node that a path leads to. -/
def position? (path : List String) (root : Value) : Option Nat :=
  (Cursor.start path).reach? (preOrder root)

/-- `find` answers the value of the node at the `position?`. -/
theorem find_eq_position? (path : List String) (root : Value) :
    find path root =
      (position? path root).bind fun n => (preOrder root)[n]?.map Visit.value := by
  rw [find, trace, Cursor.follow_eq_bind_reach?, position?, Option.map_bind]
  rfl

/-- The `position?` is the one where `seekAt?` stops among the nodes of the document. -/
theorem position?_eq_seekAt? (path : List String) (root : Value) :
    position? path root = seekAt? path 0 (below 0 root) := by
  rw [position?, preOrder_eq_below]
  exact Cursor.reach?_eq_seekAt? (Cursor.sound_start path) _

/-! ## the place where a value is found -/

/-- The search for a path from a root stops at the node at a place, which has the value. -/
structure FoundAt (path : List String) (root : Value) (place : List Nat) (x : Value) : Prop where
  valueAt : valueAt? root place = some x
  position : ∃ n, number root place = n + 1 ∧ position? path root = some n

variable {path : List String} {root x : Value} {place : List Nat}

/-- The node that is found among all nodes below the root: it carries the last segment of the
path, and the nodes below it come next. -/
theorem FoundAt.exists_visit (h : FoundAt path root place x) : ∃ before k e after,
    below 0 root = before ++ ⟨k, x, e⟩ :: (below (e + 1) x ++ after) ∧
      position? path root = some before.length ∧ number root place = before.length + 1 ∧
      place.length = e + 1 ∧ path.length = e + 1 ∧ carries path e ⟨k, x, e⟩ = true := by
  obtain ⟨n, hn, hposition⟩ := h.position
  obtain ⟨k, e, before, after, he, rfl, hbelow⟩ :=
    exists_below_eq_append_of_number 0 h.valueAt hn
  have hseek : seekAt? path 0 (below 0 root) = some before.length := by
    rw [← position?_eq_seekAt?, hposition]
  obtain ⟨j, v, hj, hv, hc⟩ := exists_carries_of_seekAt? hseek
  rw [hbelow, List.getElem?_append_right (Nat.le_refl _), Nat.sub_self] at hv
  obtain rfl : ⟨k, x, e⟩ = v := Option.some.inj hv
  obtain rfl : e = j := (carries_iff.1 hc).1
  exact ⟨before, k, e, after, hbelow, hposition, hn, by omega, hj.symm, hc⟩

/-- What is `FoundAt` a place is what `find` answers. -/
theorem FoundAt.find_eq (h : FoundAt path root place x) : find path root = some x := by
  obtain ⟨before, k, e, after, hbelow, hposition, -⟩ := h.exists_visit
  rw [find_eq_position?, hposition, preOrder_eq_below, hbelow]
  simp

/-- What the search answers is found at a place. -/
theorem find_eq_some_iff_foundAt :
    find path root = some x ↔ ∃ place, FoundAt path root place x := by
  constructor
  · intro h
    rw [find_eq_position?, Option.bind_eq_some_iff] at h
    obtain ⟨n, hposition, hx⟩ := h
    rw [preOrder_eq_below, Option.map_eq_some_iff] at hx
    obtain ⟨u, hu, rfl⟩ := hx
    have hlt : n < (below 0 root).length := (List.getElem?_eq_some_iff.1 hu).1
    have hsize := length_below 0 root
    obtain ⟨place, y, hy, hnumber⟩ := exists_number (v := root) (n := n + 1) (by omega)
    obtain ⟨k, e, before, after, -, rfl, hbelow⟩ :=
      exists_below_eq_append_of_number 0 hy hnumber
    rw [hbelow, List.getElem?_append_right (Nat.le_refl _), Nat.sub_self] at hu
    obtain rfl : ⟨k, y, e⟩ = u := Option.some.inj hu
    exact ⟨place, hy, before.length, hnumber, hposition⟩
  · rintro ⟨place, h⟩
    exact h.find_eq

/-- At a position that a search stops at there is a node, and its value is the answer. -/
theorem exists_visit_of_position? {n : Nat} (h : position? path root = some n) :
    ∃ v, (preOrder root)[n]? = some v ∧ find path root = some v.value := by
  have hseek : seekAt? path 0 (below 0 root) = some n := by rw [← position?_eq_seekAt?, h]
  obtain ⟨j, v, -, hv, -⟩ := exists_carries_of_seekAt? hseek
  rw [← preOrder_eq_below] at hv
  refine ⟨v, hv, ?_⟩
  rw [find_eq_position?, h, Option.bind_some, hv, Option.map_some]

/-- `find` answers nothing just where there is no `position?`. -/
theorem find_eq_none_iff_position? : find path root = none ↔ position? path root = none := by
  constructor
  · intro h
    cases hposition : position? path root with
    | none => rfl
    | some n =>
        obtain ⟨v, -, hv⟩ := exists_visit_of_position? hposition
        rw [h] at hv
        contradiction
  · intro h
    rw [find_eq_position?, h, Option.bind_none]

/-- A document with the path `a>b` but without `a>b>c`: there the third segment is found on
another branch, and the fourth one below it. -/
def detour : Value :=
  .object
    [("a", .object [("b", .object [("z", .null)])]),
      ("q", .object [("b", .object [("c", .object [("d", .string "far")])])])]

theorem find_detour : find ["a", "b", "c"] detour = some (.object [("d", .string "far")]) := by
  rw [find_eq_seek]
  rfl

end Extraction.Transition
