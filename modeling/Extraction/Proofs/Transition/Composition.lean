import Extraction.Proofs.Transition.Position

/-!
# Extraction.Proofs.Transition.Composition

Following one path after another.

The search for `p ++ q` first does what the search for `p` does, node by node.  Once that has
stopped, it goes on behind the node with the segments of `q`, one level deeper than a search
from that node would expect them, and the nodes below the node come first.  So it stops where
a search for `q` from that node stops, wherever the node was come upon:

* `seekAt?_append_path` — the search for `p ++ q` is that for `p`, gone on with;
* `seekAt?_deeper` — searching deeper in a document is searching in a part of it;
* `FoundAt.append` — the places of the two searches, one after the other;
* `find_append` — paths compose.
-/

namespace Extraction.Transition

open Document

variable {p q : List String}

/-! ## the search for the first path -/

/-- Along the first part of a longer path the same nodes carry its segments. -/
theorem carries_append_of_lt {i : Nat} (hi : i < p.length) (v : Visit) :
    carries (p ++ q) i v = carries p i v := by
  rw [carries, carries, List.getElem?_append_left hi]

/-- The longer search stops at no node before the shorter one does, and goes on behind it. -/
theorem seekAt?_append_path (hq : q ≠ []) {i : Nat} (hi : i < p.length) (vs : List Visit) :
    seekAt? (p ++ q) i vs = (seekAt? p i vs).bind fun n =>
      (seekAt? (p ++ q) p.length (vs.drop (n + 1))).map (n + 1 + ·) := by
  have hlength : p.length < (p ++ q).length := by
    have hpos : 0 < q.length := List.length_pos_iff.2 hq
    rw [List.length_append]
    omega
  induction vs generalizing i with
  | nil => rfl
  | cons v vs ih =>
      -- what is counted behind `v` is one less than what is counted from `v` on
      have hshift (r : Option Nat) :
          ((r.bind fun n => (seekAt? (p ++ q) p.length (vs.drop (n + 1))).map (n + 1 + ·)).map
            (· + 1)) = (r.map (· + 1)).bind fun n =>
              (seekAt? (p ++ q) p.length ((v :: vs).drop (n + 1))).map (n + 1 + ·) := by
        cases r with
        | none => rfl
        | some n =>
            simp only [Option.map_some, Option.bind_some, Option.map_map, List.drop_succ_cons]
            congr 1
            funext m
            exact Nat.add_right_comm (n + 1) m 1
      cases hc : carries p i v with
      | false =>
          have hc' : carries (p ++ q) i v = false := by rw [carries_append_of_lt hi, hc]
          rw [seekAt?_cons_of_not_carries hc', seekAt?_cons_of_not_carries hc, ih hi, hshift]
      | true =>
          have hc' : carries (p ++ q) i v = true := by rw [carries_append_of_lt hi, hc]
          have hi' : i + 1 ≠ (p ++ q).length := by omega
          rw [seekAt?_cons_of_carries hc' hi']
          by_cases hlast : i + 1 = p.length
          · rw [seekAt?_cons_of_last hc hlast, hlast, Option.bind_some, List.drop_succ_cons,
              List.drop_zero]
            congr 1
            funext m
            exact Nat.add_comm m 1
          · rw [seekAt?_cons_of_carries hc hlast, ih (by omega), hshift]

/-! ## the search for the second path -/

/-- A node as it stands in a document that lies `d` levels deep in another. -/
def Visit.deeper (d : Nat) (v : Visit) : Visit := { v with depth := d + v.depth }

/-- The nodes below a document that lies deeper are the same nodes, each as `Visit.deeper` puts
it. -/
theorem below_add (d e : Nat) (v : Value) : below (d + e) v = (below e v).map (Visit.deeper d) := by
  induction v using childInduction generalizing e with
  | step v ih =>
      have hsubtree (c : Key × Value) (hc : c ∈ children v) :
          subtree (d + e) c = (subtree e c).map (Visit.deeper d) := by
        rw [subtree, subtree, List.map_cons, ← ih c hc (e + 1)]
        rfl
      rw [below_eq_flatMap, below_eq_flatMap, List.map_flatMap, List.flatMap_def,
        List.flatMap_def, List.map_congr_left hsubtree]

/-- Behind the first part a deeper node carries a segment just if it does so by itself. -/
theorem carries_deeper (j : Nat) (v : Visit) :
    carries (p ++ q) (p.length + j) (v.deeper p.length) = carries q j v := by
  rw [carries, carries, List.getElem?_append_right (Nat.le_add_right _ _),
    Nat.add_sub_cancel_left]
  congr 1
  rw [Bool.eq_iff_iff, beq_iff_eq, beq_iff_eq]
  exact Nat.add_left_cancel_iff

/-- `seekAt?` goes on for a longer path below a value as it goes for the rest of it from a root.
-/
theorem seekAt?_deeper (j : Nat) (vs : List Visit) :
    seekAt? (p ++ q) (p.length + j) (vs.map (Visit.deeper p.length)) = seekAt? q j vs := by
  induction vs generalizing j with
  | nil => rfl
  | cons v vs ih =>
      have hlast : p.length + j + 1 = (p ++ q).length ↔ j + 1 = q.length := by
        rw [List.length_append]
        omega
      rw [List.map_cons, seekAt?, seekAt?, carries_deeper, ih j, Nat.add_assoc, ih (j + 1),
        ← Nat.add_assoc]
      simp only [hlast]

/-! ## one path after the other -/

/-- If `p` leads to a node and `q` leads on from it, then `p ++ q` leads to the same node as
`q` does. -/
theorem FoundAt.append {root s v : Value} {place inner : List Nat}
    (hs : FoundAt p root place s) (hv : FoundAt q s inner v) :
    FoundAt (p ++ q) root (place ++ inner) v := by
  obtain ⟨before, k, e, after, hbelow, hposition, hnumber, -, hlength, -⟩ := hs.exists_visit
  obtain ⟨m, hm, hinner⟩ := hv.position
  have hq : q ≠ [] := by
    rintro rfl
    obtain ⟨_, _, _, _, -, -, -, -, hzero, -⟩ := hv.exists_visit
    exact absurd hzero.symm (Nat.succ_ne_zero _)
  have hfirst : seekAt? p 0 (below 0 root) = some before.length := by
    rw [← position?_eq_seekAt?, hposition]
  -- behind the node that `p` leads to come the nodes below it
  have hdrop : (below 0 root).drop (before.length + 1) = below p.length s ++ after := by
    rw [hbelow, hlength, List.append_cons, List.drop_left' (by rw [List.length_append]; rfl)]
  have hrest : seekAt? (p ++ q) p.length ((below 0 root).drop (before.length + 1)) = some m := by
    have hsecond : seekAt? (p ++ q) p.length (below p.length s) = some m := by
      have hdeeper := seekAt?_deeper (p := p) (q := q) 0 (below 0 s)
      rwa [← below_add, ← position?_eq_seekAt?, hinner] at hdeeper
    rw [hdrop, seekAt?_append_of_eq_some hsecond]
  refine ⟨?_, before.length + 1 + m, ?_, ?_⟩
  · rw [valueAt?_append, hs.valueAt, Option.bind_some, hv.valueAt]
  · rw [number_append hs.valueAt, hnumber, hm]
    rfl
  · rw [position?_eq_seekAt?, seekAt?_append_path hq (by omega), hfirst, Option.bind_some, hrest,
      Option.map_some]

/-- Where `find` misses the first part it misses every longer path. -/
theorem find_append_eq_none (hp : p ≠ []) {root : Value} (h : find p root = none)
    (q : List String) : find (p ++ q) root = none := by
  by_cases hq : q = []
  · rw [hq, List.append_nil, h]
  · have hpos : 0 < p.length := List.length_pos_iff.2 hp
    rw [find_eq_none_iff_position?, position?_eq_seekAt?] at h ⊢
    rw [seekAt?_append_path hq hpos, h, Option.bind_none]

/-- **Paths compose**: if `p` leads from a root to `s` and `q` leads from `s` to `v`, then
`p ++ q` leads from the root to `v`, that is to the node that `q` leads to and not only to its
value.  If `p` leads nowhere, then neither does a path that goes on from it. -/
theorem find_append (hp : p ≠ []) (q : List String) (root : Value) :
    (∀ s v, find p root = some s → find q s = some v → find (p ++ q) root = some v) ∧
    (∀ place inner s v, FoundAt p root place s → FoundAt q s inner v →
      FoundAt (p ++ q) root (place ++ inner) v) ∧
    (find p root = none → find (p ++ q) root = none) := by
  refine ⟨fun s v hs hv => ?_, fun _ _ _ _ hs hv => hs.append hv,
    fun h => find_append_eq_none hp h q⟩
  obtain ⟨place, hs⟩ := find_eq_some_iff_foundAt.1 hs
  obtain ⟨inner, hv⟩ := find_eq_some_iff_foundAt.1 hv
  exact (hs.append hv).find_eq

/-- In `detour` the first part of a path leads to a node off the path, and the rest goes on from
there. -/
theorem find_append_detour :
    ["a", "b", "c"] ≠ [] ∧ ["a", "x"] ≠ [] ∧
      find ["a", "b", "c"] detour = some (.object [("d", .string "far")]) ∧
      find ["d"] (.object [("d", .string "far")]) = some (.string "far") ∧
      find ["a", "b", "c", "d"] detour = some (.string "far") ∧
      find ["a", "x"] detour = none ∧ find ["a", "x", "d"] detour = none := by
  have hinner : find ["d"] (.object [("d", .string "far")]) = some (.string "far") := by
    rw [find_eq_seek]
    rfl
  have hnone : find ["a", "x"] detour = none := by
    rw [find_eq_seek]
    rfl
  exact ⟨by decide, by decide, find_detour, hinner,
    (find_append (by decide) ["d"] detour).1 _ _ find_detour hinner, hnone,
    (find_append (by decide) ["d"] detour).2.2 hnone⟩

end Extraction.Transition
