import Extraction.Proofs.Transition.PreOrder

/-!
# Extraction.Proofs.Transition.Place

Where a node stands in a document, and its number in the pre-order.

A place is a list of child numbers: `[i, j]` is child `j` of child `i` of the document, and
`[]` is the document itself.  Nodes may agree in key, value and depth; their places tell them
apart.  Every node comes before its children, so the number of a node is

```
number v []           = 0
number v (i :: place) = 1 + nodes of the children before child i + number (child i) place
```

and the node with number `n + 1` is node `n` of those below the document:

* `valueAt?_append`, `number_append` — going on from a node that was reached;
* `number_injective`, `exists_number` — every number up to the size belongs to one place;
* `isPrefix_iff_number` — the nodes of a subtree have consecutive numbers;
* `exists_below_eq_append`, `exists_below_eq_append_of_number` — the node at a place among the
  nodes below a document.
-/

namespace Extraction.Transition

open Document

/-- The value at a place. -/
def valueAt? : Value → List Nat → Option Value
  | v, [] => some v
  | v, i :: place => (children v)[i]?.bind fun c => valueAt? c.2 place

/-- The number of the node at a place, where the document itself has number zero. -/
def number : Value → List Nat → Nat
  | _, [] => 0
  | v, i :: place =>
    1 + Walk.sizeOfChildren ((children v).take i) +
      match (children v)[i]? with
      | some c => number c.2 place
      | none => 0

@[simp] theorem valueAt?_nil (v : Value) : valueAt? v [] = some v := rfl

@[simp] theorem number_nil (v : Value) : number v [] = 0 := rfl

/-- `valueAt?` goes to the child that the place counts first. -/
theorem valueAt?_cons_eq_some_iff {v x : Value} {i : Nat} {place : List Nat} :
    valueAt? v (i :: place) = some x ↔
      ∃ c, (children v)[i]? = some c ∧ valueAt? c.2 place = some x := by
  rw [valueAt?, Option.bind_eq_some_iff]

/-- At a child `valueAt?` goes on with the rest of the place. -/
theorem valueAt?_cons {v : Value} {i : Nat} {c : Key × Value} (hc : (children v)[i]? = some c)
    (place : List Nat) : valueAt? v (i :: place) = valueAt? c.2 place := by
  rw [valueAt?, hc, Option.bind_some]

/-- The `number` of a node counts its parent, the subtrees before it, and goes on inside. -/
theorem number_cons {v : Value} {i : Nat} {c : Key × Value} (hc : (children v)[i]? = some c)
    (place : List Nat) : number v (i :: place) =
      1 + Walk.sizeOfChildren ((children v).take i) + number c.2 place := by
  rw [number, hc]

/-! ## the nodes of children -/

theorem eq_take_append_drop {cs : List (Key × Value)} {i : Nat} {c : Key × Value}
    (hc : cs[i]? = some c) : cs = cs.take i ++ c :: cs.drop (i + 1) := by
  obtain ⟨hi, rfl⟩ := List.getElem?_eq_some_iff.1 hc
  rw [List.getElem_cons_drop, List.take_append_drop]

/-- `sizeOfChildren` adds up. -/
theorem sizeOfChildren_append (cs ds : List (Key × Value)) :
    Walk.sizeOfChildren (cs ++ ds) = Walk.sizeOfChildren cs + Walk.sizeOfChildren ds := by
  induction cs with
  | nil => simp [Walk.sizeOfChildren]
  | cons c cs ih =>
      rw [List.cons_append, Walk.sizeOfChildren, Walk.sizeOfChildren, ih, Nat.add_assoc]

/-- The first children have no more nodes than all of them. -/
theorem sizeOfChildren_take_le (cs : List (Key × Value)) (i : Nat) :
    Walk.sizeOfChildren (cs.take i) ≤ Walk.sizeOfChildren cs := by
  have h := sizeOfChildren_append (cs.take i) (cs.drop i)
  rw [List.take_append_drop] at h
  omega

/-- A child and the children before it stand before every later child. -/
theorem sizeOfChildren_take_add_le {cs : List (Key × Value)} {i j : Nat} {c : Key × Value}
    (hc : cs[i]? = some c) (hij : i < j) :
    Walk.sizeOfChildren (cs.take i) + c.2.size ≤ Walk.sizeOfChildren (cs.take j) := by
  have htake : (cs.take j).take (i + 1) = cs.take i ++ [c] := by
    rw [List.take_take, Nat.min_eq_left hij, List.take_add_one, hc, Option.toList_some]
  have hle := sizeOfChildren_take_le (cs.take j) (i + 1)
  rw [htake, sizeOfChildren_append] at hle
  simpa [Walk.sizeOfChildren] using hle

/-- Counting through the children one comes into one of them. -/
theorem exists_child_of_lt {cs : List (Key × Value)} {n : Nat}
    (hn : n < Walk.sizeOfChildren cs) : ∃ i c r, cs[i]? = some c ∧ r < c.2.size ∧
      n = Walk.sizeOfChildren (cs.take i) + r := by
  induction cs generalizing n with
  | nil => simp [Walk.sizeOfChildren] at hn
  | cons c cs ih =>
      rw [Walk.sizeOfChildren] at hn
      by_cases h : n < c.2.size
      · exact ⟨0, c, n, rfl, h, by simp [Walk.sizeOfChildren]⟩
      · obtain ⟨i, d, r, hd, hr, heq⟩ := ih (n := n - c.2.size) (by omega)
        refine ⟨i + 1, d, r, hd, hr, ?_⟩
        rw [List.take_succ_cons, Walk.sizeOfChildren]
        omega

theorem length_flatMap_subtree {d : Nat} {cs : List (Key × Value)}
    (h : ∀ c ∈ cs, (below (d + 1) c.2).length + 1 = c.2.size) :
    (cs.flatMap (subtree d)).length = Walk.sizeOfChildren cs := by
  induction cs with
  | nil => rfl
  | cons c cs ih =>
      have hc := h c List.mem_cons_self
      have hcs := ih fun e he => h e (List.mem_cons_of_mem c he)
      rw [List.flatMap_cons, List.length_append, hcs, Walk.sizeOfChildren, subtree,
        List.length_cons, hc]

/-- The nodes below a value are all its nodes but itself. -/
theorem length_below (d : Nat) (v : Value) : (below d v).length + 1 = v.size := by
  induction v using childInduction generalizing d with
  | step v ih =>
      rw [below_eq_flatMap, length_flatMap_subtree fun c hc => ih c hc (d + 1),
        Walk.size_eq_children]

/-- The subtrees of children have as many nodes as `sizeOfChildren` counts. -/
theorem length_subtrees (d : Nat) (cs : List (Key × Value)) :
    (cs.flatMap (subtree d)).length = Walk.sizeOfChildren cs :=
  length_flatMap_subtree fun c _ => length_below (d + 1) c.2

/-! ## going on from a node -/

/-- `valueAt?` follows a longer place by following its parts. -/
theorem valueAt?_append (v : Value) (front place : List Nat) :
    valueAt? v (front ++ place) = (valueAt? v front).bind fun x => valueAt? x place := by
  induction front generalizing v with
  | nil => rfl
  | cons i front ih =>
      rw [List.cons_append, valueAt?, valueAt?, Option.bind_assoc]
      simp only [ih]

/-- The `number` of a node inside a part is that of the part and its own there. -/
theorem number_append {v x : Value} {front : List Nat} (hx : valueAt? v front = some x)
    (place : List Nat) : number v (front ++ place) = number v front + number x place := by
  induction front generalizing v with
  | nil =>
      obtain rfl : v = x := Option.some.inj hx
      rw [List.nil_append, number_nil, Nat.zero_add]
  | cons i front ih =>
      obtain ⟨c, hc, hx⟩ := valueAt?_cons_eq_some_iff.1 hx
      rw [List.cons_append, number_cons hc, number_cons hc, ih hx]
      omega

/-! ## numbers and places -/

/-- The nodes of a subtree are among those of the document. -/
theorem number_add_size_le {v x : Value} {place : List Nat} (hx : valueAt? v place = some x) :
    number v place + x.size ≤ v.size := by
  induction place generalizing v with
  | nil =>
      obtain rfl : v = x := Option.some.inj hx
      exact Nat.le_of_eq (by rw [number_nil, Nat.zero_add])
  | cons i place ih =>
      obtain ⟨c, hc, hx⟩ := valueAt?_cons_eq_some_iff.1 hx
      have hle := ih hx
      have hi : i < (children v).length := (List.getElem?_eq_some_iff.1 hc).1
      have hsize := sizeOfChildren_take_add_le hc hi
      rw [List.take_length] at hsize
      rw [number_cons hc, Walk.size_eq_children v]
      omega

theorem size_pos (v : Value) : 0 < v.size := by
  rw [Walk.size_eq_children]
  exact Nat.succ_pos _

/-- A document has a node for each `number` that it gives. -/
theorem number_lt_size {v x : Value} {place : List Nat} (hx : valueAt? v place = some x) :
    number v place < v.size := by
  have hle := number_add_size_le hx
  have hpos := size_pos x
  omega

/-- A node in an earlier child has a smaller number. -/
theorem number_lt_number_of_lt {v x : Value} {i j : Nat} {p : List Nat} {d : Key × Value}
    (hx : valueAt? v (i :: p) = some x) (hd : (children v)[j]? = some d) (hij : i < j)
    (q : List Nat) : number v (i :: p) < number v (j :: q) := by
  obtain ⟨c, hc, hx⟩ := valueAt?_cons_eq_some_iff.1 hx
  have hlt := number_lt_size hx
  have hle := sizeOfChildren_take_add_le hc hij
  rw [number_cons hc, number_cons hd]
  omega

/-- Different places have different numbers. -/
theorem number_injective {v x y : Value} {p q : List Nat} (hx : valueAt? v p = some x)
    (hy : valueAt? v q = some y) (h : number v p = number v q) : p = q := by
  induction p generalizing v q with
  | nil =>
      cases q with
      | nil => rfl
      | cons j q =>
          obtain ⟨d, hd, -⟩ := valueAt?_cons_eq_some_iff.1 hy
          rw [number_nil, number_cons hd] at h
          omega
  | cons i p ih =>
      obtain ⟨c, hc, hxc⟩ := valueAt?_cons_eq_some_iff.1 hx
      cases q with
      | nil =>
          rw [number_nil, number_cons hc] at h
          omega
      | cons j q =>
          obtain ⟨d, hd, hyd⟩ := valueAt?_cons_eq_some_iff.1 hy
          rcases Nat.lt_trichotomy i j with hij | rfl | hij
          -- different children: the whole subtree of the one comes before the other
          · have hlt := number_lt_number_of_lt hx hd hij q
            omega
          · obtain rfl : c = d := Option.some.inj (hc.symm.trans hd)
            rw [number_cons hc, number_cons hc] at h
            rw [ih hxc hyd (by omega)]
          · have hlt := number_lt_number_of_lt hy hc hij p
            omega

/-- Every number below the size of a document is that of a node. -/
theorem exists_number {v : Value} {n : Nat} (hn : n < v.size) :
    ∃ place x, valueAt? v place = some x ∧ number v place = n := by
  induction v using childInduction generalizing n with
  | step v ih =>
      cases n with
      | zero => exact ⟨[], v, rfl, rfl⟩
      | succ n =>
          rw [Walk.size_eq_children] at hn
          obtain ⟨i, c, r, hc, hr, hsum⟩ := exists_child_of_lt (Nat.lt_of_succ_lt_succ hn)
          obtain ⟨place, x, hx, hnumber⟩ := ih c (List.mem_of_getElem? hc) hr
          refine ⟨i :: place, x, by rw [valueAt?_cons hc, hx], ?_⟩
          rw [number_cons hc, hnumber, hsum]
          omega

/-- The nodes of a subtree have consecutive numbers, and no other node has one of them. -/
theorem isPrefix_iff_number {v x y : Value} {place q : List Nat}
    (hx : valueAt? v place = some x) (hy : valueAt? v q = some y) :
    place <+: q ↔ number v place ≤ number v q ∧ number v q < number v place + x.size := by
  constructor
  · rintro ⟨rest, rfl⟩
    rw [valueAt?_append, hx, Option.bind_some] at hy
    have hlt := number_lt_size hy
    rw [number_append hx]
    omega
  · rintro ⟨hle, hlt⟩
    obtain ⟨rest, z, hz, hnumber⟩ :=
      exists_number (v := x) (n := number v q - number v place) (by omega)
    have hrest : valueAt? v (place ++ rest) = some z := by
      rw [valueAt?_append, hx, Option.bind_some, hz]
    have heq : number v (place ++ rest) = number v q := by
      rw [number_append hx, hnumber]
      omega
    exact ⟨rest, number_injective hrest hy heq⟩

/-! ## the node at a place among those below -/

/-- The node at a place below a value is followed at once by all nodes below it. -/
theorem exists_below_eq_append (d : Nat) {v y : Value} {front : List Nat} {i : Nat}
    {c : Key × Value} (hy : valueAt? v front = some y) (hc : (children y)[i]? = some c) :
    ∃ before after, below d v = before ++ ⟨c.1, c.2, d + front.length⟩ ::
        (below (d + front.length + 1) c.2 ++ after) ∧
      number v (front ++ [i]) = before.length + 1 := by
  induction front generalizing v d with
  | nil =>
      obtain rfl : v = y := Option.some.inj hy
      refine ⟨_, _, below_of_children_eq (eq_take_append_drop hc) d, ?_⟩
      rw [List.nil_append, number_cons hc, number_nil, length_subtrees]
      omega
  | cons j front ih =>
      obtain ⟨e, he, hy⟩ := valueAt?_cons_eq_some_iff.1 hy
      obtain ⟨before, after, hbelow, hnumber⟩ := ih (d + 1) hy
      have hdepth : d + 1 + front.length = d + (j :: front).length := by
        rw [List.length_cons]
        omega
      rw [hdepth] at hbelow
      -- the subtrees before child `j` and the child itself come first, those behind it last
      refine ⟨((children v).take j).flatMap (subtree d) ++ ⟨e.1, e.2, d⟩ :: before,
        after ++ ((children v).drop (j + 1)).flatMap (subtree d), ?_, ?_⟩
      · rw [below_of_children_eq (eq_take_append_drop he) d, hbelow]
        simp only [List.append_assoc, List.cons_append]
      · rw [List.cons_append, number_cons he, hnumber, List.length_append, List.length_cons,
          length_subtrees]
        omega

/-- What stands at a place is a child of what stands above it. -/
theorem exists_child_of_valueAt? {v x : Value} {parent : List Nat} {i : Nat}
    (hx : valueAt? v (parent ++ [i]) = some x) :
    ∃ y k, valueAt? v parent = some y ∧ (children y)[i]? = some (k, x) := by
  rw [valueAt?_append, Option.bind_eq_some_iff] at hx
  obtain ⟨y, hy, hx⟩ := hx
  obtain ⟨⟨k, z⟩, hc, hz⟩ := valueAt?_cons_eq_some_iff.1 hx
  obtain rfl : z = x := Option.some.inj hz
  exact ⟨y, k, hy, hc⟩

/-- The node with number `n + 1` is node `n` of those below, at the depth of its place. -/
theorem exists_below_eq_append_of_number (d : Nat) {v x : Value} {place : List Nat} {n : Nat}
    (hx : valueAt? v place = some x) (hn : number v place = n + 1) :
    ∃ k e before after, d + place.length = e + 1 ∧ before.length = n ∧
      below d v = before ++ ⟨k, x, e⟩ :: (below (e + 1) x ++ after) := by
  rcases List.eq_nil_or_concat place with rfl | ⟨parent, i, rfl⟩
  · simp at hn
  · rw [List.concat_eq_append] at hx hn ⊢
    obtain ⟨y, k, hy, hc⟩ := exists_child_of_valueAt? hx
    obtain ⟨before, after, hbelow, hnumber⟩ := exists_below_eq_append d hy hc
    refine ⟨k, d + parent.length, before, after, ?_, by omega, hbelow⟩
    rw [List.length_append, List.length_singleton, Nat.add_assoc]

end Extraction.Transition
