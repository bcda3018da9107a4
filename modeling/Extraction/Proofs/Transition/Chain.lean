import Extraction.Proofs.Transition.Position

/-!
# Extraction.Proofs.Transition.Chain

What the search for a path finds, said by positions in the pre-order of a document.

The nodes below the root stand at positions `0, 1, …`.  A path picks a greedy chain of
them,

```
p₀ = the first position at depth 0 with the key path[0]
pᵢ = the first position after pᵢ₋₁ at depth i with the key path[i]
```

and the search stops at the last position of the chain:

* `Chain.unique` — a segment has at most one position in the chain;
* `stops_seekAt?_drop` — seeking walks along the chain, whatever the stretch still left;
* `stops_seekAt?` — where it stops;
* `find_iff_chain` — where `find` stops, what it answers, and when it answers nothing.
-/

namespace Extraction.Transition

open Document

variable {nodes : List Visit} {path : List String}

/-! ## the chain -/

/-- The node at position `p` lies at depth `i` and its key matches segment `i`. -/
def CarriesAt (nodes : List Visit) (path : List String) (i p : Nat) : Prop :=
  ∃ v s, nodes[p]? = some v ∧ path[i]? = some s ∧ v.depth = i ∧ v.key.matches s = true

/-- `p` is the first position from `start` on whose node carries segment `i`. -/
structure IsFirst (nodes : List Visit) (path : List String) (i start p : Nat) : Prop where
  start_le : start ≤ p
  carriesAt : CarriesAt nodes path i p
  least : ∀ q, start ≤ q → q < p → ¬ CarriesAt nodes path i q

/-- `Chain nodes path i p`: the greedy chain of the path has segment `i` at position `p`. -/
inductive Chain (nodes : List Visit) (path : List String) : Nat → Nat → Prop
  | first {p : Nat} : IsFirst nodes path 0 0 p → Chain nodes path 0 p
  | next {i p q : Nat} : Chain nodes path i p → IsFirst nodes path (i + 1) (p + 1) q →
      Chain nodes path (i + 1) q

/-- There is one first position at most. -/
theorem IsFirst.unique {i start p q : Nat} (hp : IsFirst nodes path i start p)
    (hq : IsFirst nodes path i start q) : p = q := by
  rcases Nat.lt_trichotomy p q with h | h | h
  · exact absurd hp.carriesAt (hq.least p hp.start_le h)
  · exact h
  · exact absurd hq.carriesAt (hp.least q hq.start_le h)

/-- There is one position at most for each segment of a `Chain`, by induction along it. -/
theorem Chain.unique {i p q : Nat} (hp : Chain nodes path i p) (hq : Chain nodes path i q) :
    p = q := by
  induction hp generalizing q with
  | first hp =>
      cases hq with
      | first hq => exact hp.unique hq
  | next _ hp ih =>
      cases hq with
      | next hc hq =>
          rw [ih hc] at hp
          exact hp.unique hq

/-- A chain that has a segment has all segments before it. -/
theorem Chain.exists_of_le {i j p : Nat} (h : Chain nodes path j p) (hi : i ≤ j) :
    ∃ q, Chain nodes path i q := by
  induction h with
  | @first p hp => exact ⟨p, Nat.le_zero.1 hi ▸ .first hp⟩
  | @next j p q hc hq ih =>
      rcases Nat.le_or_eq_of_le_succ hi with hi | rfl
      · exact ih hi
      · exact ⟨q, .next hc hq⟩

/-- Segment `i` is looked for from position `start` on: the first segment from the first
node on, another one from behind the node of the segment before it. -/
inductive Start (nodes : List Visit) (path : List String) : Nat → Nat → Prop
  | zero : Start nodes path 0 0
  | succ {i p : Nat} : Chain nodes path i p → Start nodes path (i + 1) (p + 1)

/-- The first position behind the `Start` of a segment is the next one of the chain. -/
theorem Start.chain {i start p : Nat} (h : Start nodes path i start)
    (hp : IsFirst nodes path i start p) : Chain nodes path i p := by
  cases h with
  | zero => exact .first hp
  | succ hc => exact .next hc hp

/-- A position of the chain is the first one behind the place where its search starts. -/
theorem Chain.isFirst {i start p : Nat} (h : Chain nodes path i p)
    (hs : Start nodes path i start) : IsFirst nodes path i start p := by
  cases h with
  | first hp =>
      cases hs with
      | zero => exact hp
  | next hc hp =>
      cases hs with
      | succ hc' => exact hc'.unique hc ▸ hp

/-! ## seeking along the chain -/

/-- `CarriesAt` is what `carries` decides for a single node. -/
theorem carriesAt_iff {i p : Nat} {v : Visit} (hv : nodes[p]? = some v) :
    CarriesAt nodes path i p ↔ carries path i v = true := by
  rw [carries_iff]
  constructor
  · rintro ⟨u, s, hu, hs, hd, hk⟩
    obtain rfl : u = v := Option.some.inj (hu.symm.trans hv)
    exact ⟨hd, s, hs, hk⟩
  · rintro ⟨hd, s, hs, hk⟩
    exact ⟨v, s, hv, hs, hd, hk⟩

/-- Where the search for a path stops: at the last segment and the position at the end of the
chain, or at the first segment that has no position in the chain. -/
def Stops (nodes : List Visit) (path : List String) : Option Nat → Nat → Prop
  | some p, n => path.length = n + 1 ∧ Chain nodes path n p
  | none, n => ∀ i, (∃ p, Chain nodes path i p) ↔ i < n

/-- A segment that is looked for comes behind one that has its position in the chain. -/
theorem Start.exists_of_lt {i j start : Nat} (hs : Start nodes path i start) (hj : j < i) :
    ∃ p, Chain nodes path j p := by
  cases hs with
  | zero => exact absurd hj (Nat.not_lt_zero j)
  | succ hc => exact hc.exists_of_le (Nat.le_of_lt_succ hj)

/-- A position behind the first node of a stretch, counted from the start of all nodes. -/
theorem map_add_one_map_add (r : Option Nat) (k : Nat) :
    (r.map (· + 1)).map (k + ·) = r.map (k + 1 + ·) := by
  rw [Option.map_map]
  congr 1
  funext n
  exact Nat.add_left_comm k n 1 |>.trans (Nat.add_comm n (k + 1))

/-- The search at the stretch from position `k` on, when segment `i` is looked for since
`start` and none of the nodes before `k` carries it. -/
theorem stops_seekAt?_drop {i start k : Nat} (hs : Start nodes path i start) (hk : start ≤ k)
    (hpassed : ∀ q, start ≤ q → q < k → ¬ CarriesAt nodes path i q) :
    Stops nodes path ((seekAt? path i (nodes.drop k)).map (k + ·))
      (stopsAt path i (nodes.drop k)) := by
  -- the stretch still left shrinks by one node, and the segment may change with it
  induction hvs : nodes.drop k generalizing i start k with
  | nil =>
      have hlen : nodes.length ≤ k := List.drop_eq_nil_iff.1 hvs
      have hno : ∀ p, ¬ Chain nodes path i p := fun p hp => by
        have hfirst := hp.isFirst hs
        obtain ⟨v, s, hv, -⟩ := hfirst.carriesAt
        have hlt : p < nodes.length := (List.getElem?_eq_some_iff.1 hv).1
        exact hpassed p hfirst.start_le (by omega) hfirst.carriesAt
      refine fun j => ⟨fun ⟨p, hp⟩ => Nat.lt_of_not_le fun hij => ?_, hs.exists_of_lt⟩
      obtain ⟨q, hq⟩ := hp.exists_of_le hij
      exact hno q hq
  | cons v vs ih =>
      have hv : nodes[k]? = some v := by rw [← List.head?_drop, hvs, List.head?_cons]
      have hrest : nodes.drop (k + 1) = vs := by rw [← List.tail_drop, hvs, List.tail_cons]
      cases hc : carries path i v with
      | false =>
          rw [seekAt?_cons_of_not_carries hc, stopsAt_cons_of_not_carries hc, map_add_one_map_add]
          refine ih hs (by omega) (fun q hq hlt => ?_) hrest
          rcases Nat.lt_succ_iff_lt_or_eq.1 hlt with hlt | rfl
          · exact hpassed q hq hlt
          · rw [carriesAt_iff hv, hc]
            exact Bool.false_ne_true
      | true =>
          have hfirst : IsFirst nodes path i start k := ⟨hk, (carriesAt_iff hv).2 hc, hpassed⟩
          have hchain : Chain nodes path i k := hs.chain hfirst
          by_cases hlast : i + 1 = path.length
          · rw [seekAt?_cons_of_last hc hlast, stopsAt_cons_of_last hc hlast]
            exact ⟨hlast.symm, hchain⟩
          · rw [seekAt?_cons_of_carries hc hlast, stopsAt_cons_of_carries hc hlast,
              map_add_one_map_add]
            exact ih (.succ hchain) (Nat.le_refl _) (fun q hq hlt => by omega) hrest

/-- The search from the first node on. -/
theorem stops_seekAt? (nodes : List Visit) (path : List String) :
    Stops nodes path (seekAt? path 0 nodes) (stopsAt path 0 nodes) := by
  have hstops : Stops nodes path ((seekAt? path 0 (nodes.drop 0)).map (0 + ·))
      (stopsAt path 0 (nodes.drop 0)) :=
    stops_seekAt?_drop .zero (Nat.le_refl 0) fun q _ hlt => absurd hlt (Nat.not_lt_zero q)
  have hzero : (0 + · : Nat → Nat) = id := funext Nat.zero_add
  rwa [List.drop_zero, hzero, Option.map_id_apply] at hstops

/-- The search stops at the position that the chain has for the last segment, and only there. -/
theorem seekAt?_eq_some_iff {p : Nat} :
    seekAt? path 0 nodes = some p ↔ ∃ n, path.length = n + 1 ∧ Chain nodes path n p := by
  have hstops := stops_seekAt? nodes path
  constructor
  · intro h
    rw [h] at hstops
    exact ⟨_, hstops⟩
  · intro ⟨n, hn, hp⟩
    cases hs : seekAt? path 0 nodes with
    | none =>
        rw [hs] at hstops
        have hlt : n < stopsAt path 0 nodes := (hstops n).1 ⟨p, hp⟩
        have hle : stopsAt path 0 nodes ≤ max 0 (path.length - 1) := stopsAt_le path 0 nodes
        omega
    | some q =>
        rw [hs] at hstops
        obtain ⟨hm, hq⟩ := hstops
        rw [hn, Nat.add_right_cancel_iff] at hm
        rw [← hm] at hq
        rw [hq.unique hp]

/-- The search does not stop at a node just if some segment has no position in the chain. -/
theorem seekAt?_eq_none_iff : seekAt? path 0 nodes = none ↔
    path = [] ∨ ∃ i, i < path.length ∧ ∀ p, ¬ Chain nodes path i p := by
  constructor
  · intro h
    refine Classical.or_iff_not_imp_left.2 fun hpath => ?_
    have hstops := stops_seekAt? nodes path
    rw [h] at hstops
    have hpos : 0 < path.length := List.length_pos_iff.2 hpath
    have hle : stopsAt path 0 nodes ≤ max 0 (path.length - 1) := stopsAt_le path 0 nodes
    exact ⟨stopsAt path 0 nodes, by omega, fun p hp => Nat.lt_irrefl _ ((hstops _).1 ⟨p, hp⟩)⟩
  · intro h
    cases hs : seekAt? path 0 nodes with
    | none => rfl
    | some p =>
        obtain ⟨n, hn, hp⟩ := seekAt?_eq_some_iff.1 hs
        cases h with
        | inl hnil =>
            rw [hnil] at hn
            cases hn
        | inr hbreak =>
            obtain ⟨i, hi, hno⟩ := hbreak
            obtain ⟨q, hq⟩ := hp.exists_of_le (i := i) (by omega)
            exact absurd hq (hno q)

/-- **The meaning of a path**: the search for a path stops at the node at the end of the greedy
chain of the path, and `find` answers the value of this node.  It answers nothing if the path is
empty or some segment has no position in the chain.  The chain has at most one position for a
segment, so no other node comes into question. -/
theorem find_iff_chain (path : List String) (root : Value) :
    (∀ p, position? path root = some p ↔ ∃ n, path.length = n + 1 ∧
      Chain (below 0 root) path n p) ∧
    (∀ x, find path root = some x ↔ ∃ n p v, path.length = n + 1 ∧
      Chain (below 0 root) path n p ∧ (below 0 root)[p]? = some v ∧ v.value = x) ∧
    (find path root = none ↔ path = [] ∨
      ∃ i, i < path.length ∧ ∀ p, ¬ Chain (below 0 root) path i p) ∧
    (∀ i p q, Chain (below 0 root) path i p → Chain (below 0 root) path i q → p = q) := by
  have hposition (p : Nat) : position? path root = some p ↔ ∃ n, path.length = n + 1 ∧
      Chain (below 0 root) path n p := by
    rw [position?_eq_seekAt?]
    exact seekAt?_eq_some_iff
  refine ⟨hposition, fun x => ?_, ?_, fun i p q hp hq => hp.unique hq⟩
  · rw [find_eq_position?, preOrder_eq_below, Option.bind_eq_some_iff]
    constructor
    · intro ⟨p, hp, hx⟩
      obtain ⟨n, hn, hchain⟩ := (hposition p).1 hp
      obtain ⟨v, hv, hvx⟩ := Option.map_eq_some_iff.1 hx
      exact ⟨n, p, v, hn, hchain, hv, hvx⟩
    · intro ⟨n, p, v, hn, hchain, hv, hvx⟩
      exact ⟨p, (hposition p).2 ⟨n, hn, hchain⟩, Option.map_eq_some_iff.2 ⟨v, hv, hvx⟩⟩
  · rw [find_eq_none_iff_position?, position?_eq_seekAt?]
    exact seekAt?_eq_none_iff

end Extraction.Transition
