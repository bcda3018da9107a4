import Extraction.Proofs.Transition.Descent
import Extraction.Proofs.Transition.Position
import Mathlib.Data.Nat.Order.Lemmas

/-!
# Extraction.Proofs.Transition.Deviation

What the search for a path finds if the document does not have the path.

Descending along such a path one comes to a last node, which has no child with the next key.
In a document whose objects have distinct keys the search comes to that node as well, and then
passes everything below it: the children have other keys, and all other nodes lie deeper than
the segment that is looked for.  So if it stops at all, then at a node behind that subtree:

* `DescendsBy`, `Descends.exists_descendsBy` — a descent with the place that it leads to;
* `BreaksOff`, `exists_breaksOff` — the last node of the descent along a path;
* `number_add_size_le_of_seekAt?` — the search passes the subtree of that node;
* `find_of_not_descends` — what is found instead of a path that does not exist.
-/

namespace Extraction.Transition

open Document

/-! ## descents with their places -/

/-- `DescendsBy v path place x`: going from `v` to one child for each segment of the path leads
to `x`, and the place counts the children that are gone to. -/
inductive DescendsBy : Value → List String → List Nat → Value → Prop
  | here {v : Value} : DescendsBy v [] [] v
  | step {v x : Value} {i : Nat} {c : Key × Value} {path : List String} {place : List Nat} :
      (children v)[i]? = some c → DescendsBy c.2 path place x →
      DescendsBy v (c.1.text :: path) (i :: place) x

/-- At the place of a descent stands the value that it leads to. -/
theorem DescendsBy.valueAt?_eq {v x : Value} {path : List String} {place : List Nat}
    (h : DescendsBy v path place x) : valueAt? v place = some x := by
  induction h with
  | here => rfl
  | step hc _ ih => rw [valueAt?_cons hc, ih]

/-- `DescendsBy` goes the way of `Descends`. -/
theorem DescendsBy.descends {v x : Value} {path : List String} {place : List Nat}
    (h : DescendsBy v path place x) : Descends v path x := by
  induction h with
  | here => exact .here
  | step hc _ ih => exact .step (.of_mem_children (List.mem_of_getElem? hc)) ih

/-- `Descends` goes by some place. -/
theorem Descends.exists_descendsBy {v x : Value} {path : List String} (h : Descends v path x) :
    ∃ place, DescendsBy v path place x := by
  induction h with
  | here => exact ⟨[], .here⟩
  | step hchild _ ih =>
      obtain ⟨place, hplace⟩ := ih
      obtain ⟨k, hmem, rfl⟩ := hchild.exists_mem_children
      obtain ⟨i, hi⟩ := List.mem_iff_getElem?.1 hmem
      exact ⟨i :: place, .step hi hplace⟩

/-- A way down goes on to a child. -/
theorem Descends.append_child {v w x : Value} {path : List String} {s : String}
    (h : Descends v path w) (hx : Child w s x) : Descends v (path ++ [s]) x := by
  induction h with
  | here => exact .step hx .here
  | step hchild _ ih => exact .step hchild (ih hx)

/-! ## the last node of a descent -/

/-- The first `k` segments of the path lead to the node at a place, and one segment more
leads nowhere. -/
structure BreaksOff (root : Value) (path : List String) (k : Nat) (place : List Nat)
    (x : Value) : Prop where
  lt_length : k < path.length
  descendsBy : DescendsBy root (path.take k) place x
  not_descends : ∀ y, ¬ Descends root (path.take (k + 1)) y

/-- A path that does not exist breaks off somewhere. -/
theorem exists_breaksOff {root : Value} {path : List String}
    (h : ∀ y, ¬ Descends root path y) : ∃ k place x, BreaksOff root path k place x := by
  have hzero : ¬ ∀ y, ¬ Descends root (path.take 0) y := fun hno => hno root .here
  have hlast : ∃ n, ∀ y, ¬ Descends root (path.take n) y :=
    ⟨path.length, by rwa [List.take_length]⟩
  obtain ⟨k, hk, hno⟩ := Nat.exists_not_and_succ_of_not_zero_of_exists hzero hlast
  obtain ⟨x, hx⟩ := not_forall_not.1 hk
  obtain ⟨place, hplace⟩ := hx.exists_descendsBy
  refine ⟨k, place, x, ?_, hplace, hno⟩
  rcases Nat.lt_or_ge k path.length with hlt | hge
  · exact hlt
  · rw [List.take_of_length_le hge] at hx
    exact absurd hx (h x)

/-- The node where a path breaks off has no child with the next key. -/
theorem BreaksOff.exists_drop_eq {root x : Value} {path : List String} {k : Nat}
    {place : List Nat} (h : BreaksOff root path k place x) :
    ∃ s rest, path = path.take k ++ s :: rest ∧ ∀ c ∈ children x, c.1.text ≠ s := by
  have hk := h.lt_length
  refine ⟨path[k], path.drop (k + 1), ?_, fun c hc heq => ?_⟩
  · rw [List.getElem_cons_drop, List.take_append_drop]
  · have hchild : Child x path[k] c.2 := heq ▸ .of_mem_children hc
    have hlonger := h.descendsBy.descends.append_child hchild
    rw [List.take_append_getElem] at hlonger
    exact h.not_descends c.2 hlonger

/-! ## the search behind it -/

/-- The search below a value follows the descent and then passes everything below its last
node, if no child of that node has the next key. -/
theorem number_add_size_le_of_seekAt? {v x : Value} {front : List String} {place : List Nat}
    (hx : DescendsBy v front place x) (hv : v.DistinctKeys) {path rest : List String} {i : Nat}
    {s : String} (hpath : path.drop i = front ++ s :: rest)
    (hs : ∀ c ∈ children x, c.1.text ≠ s) {after : List Visit} {n : Nat}
    (h : seekAt? path i (below i v ++ after) = some n) : number v place + x.size ≤ n + 1 := by
  induction hx generalizing i after n with
  | @here v =>
      have hsegment : path[i]? = some s := by rw [← List.head?_drop, hpath]; rfl
      -- no child continues the path, and deeper nodes lie too deep: all of them are passed over
      have hpass (u : Visit) (hu : u ∈ below i v) : carries path i u = false := by
        rw [below_eq_flatMap] at hu
        exact not_carries_of_mem_subtrees hsegment hs hu
      rw [seekAt?_append_of_not_carries hpass, Option.map_eq_some_iff] at h
      obtain ⟨m, -, rfl⟩ := h
      have hsize := length_below i v
      rw [number_nil]
      omega
  | @step v x j c front place hc _ ih =>
      have hsegment : path[i]? = some c.1.text := by rw [← List.head?_drop, hpath]; rfl
      have hdrop : path.drop (i + 1) = front ++ s :: rest := by
        rw [← List.tail_drop, hpath]
        rfl
      have hlast : i + 1 ≠ path.length := by
        intro heq
        rw [heq, List.drop_length] at hdrop
        exact absurd hdrop.symm (by simp)
      have hsplit := eq_take_append_drop hc
      have hbefore := text_ne_of_children_eq hv hsplit
      have hcarries : carries path i ⟨c.1, c.2, i⟩ = true :=
        carries_iff.2 ⟨rfl, _, hsegment, matches_iff.2 rfl⟩
      -- the children before `c` are passed over, `c` carries the segment, the rest is below `c`
      rw [below_of_children_eq hsplit i, List.append_assoc, List.cons_append, List.append_assoc,
        seekAt?_append_of_not_carries fun u hu =>
          not_carries_of_mem_subtrees hsegment hbefore hu,
        seekAt?_cons_of_carries hcarries hlast, Option.map_map, Option.map_eq_some_iff] at h
      obtain ⟨m, hm, rfl⟩ := h
      have hw : c.2.DistinctKeys := distinctKeys_of_mem_children hv (List.mem_of_getElem? hc)
      have hle := ih hw hdrop hs hm
      rw [number_cons hc, Function.comp_apply, length_subtrees]
      omega

/-- What is found instead comes behind all nodes of the subtree where the path breaks off. -/
theorem BreaksOff.number_add_size_le {root x v : Value} {path : List String} {k : Nat}
    {place found : List Nat} (h : BreaksOff root path k place x) (hroot : root.DistinctKeys)
    (hv : FoundAt path root found v) : number root place + x.size ≤ number root found := by
  obtain ⟨s, rest, hpath, hs⟩ := h.exists_drop_eq
  obtain ⟨n, hn, hposition⟩ := hv.position
  have hseek : seekAt? path 0 (below 0 root ++ []) = some n := by
    rw [List.append_nil, ← position?_eq_seekAt?, hposition]
  have hle := number_add_size_le_of_seekAt? h.descendsBy hroot (i := 0) hpath hs hseek
  omega

/-- **A path that does not exist**: let the descent along it break off after `k` segments.  If
that is at once, nothing is found.  Otherwise a node that is found is as deep as the path is
long and carries its last segment, but it lies outside the subtree of the node where the path
breaks off and comes after every node of that subtree. -/
theorem find_of_not_descends {root : Value} {path : List String} (hroot : root.DistinctKeys)
    (hpath : ∀ y, ¬ Descends root path y) :
    (∃ k place x, BreaksOff root path k place x) ∧
    ∀ k place x, BreaksOff root path k place x →
      (k = 0 → find path root = none) ∧
      ∀ v, find path root = some v → ∃ found n u s, FoundAt path root found v ∧
        number root found = n + 1 ∧ (preOrder root)[n]? = some u ∧ u.value = v ∧
        u.depth + 1 = path.length ∧ path.getLast? = some s ∧ u.key.matches s = true ∧
        ¬ place <+: found ∧
        ∀ q, (valueAt? root q).isSome → place <+: q → number root q < number root found := by
  refine ⟨exists_breaksOff hpath, fun k place x h => ?_⟩
  have hbehind {found : List Nat} {v : Value} (hv : FoundAt path root found v) (q : List Nat)
      (hq : (valueAt? root q).isSome) (hinside : place <+: q) :
      number root q < number root found := by
    obtain ⟨y, hy⟩ := Option.isSome_iff_exists.1 hq
    have hlt := ((isPrefix_iff_number h.descendsBy.valueAt?_eq hy).1 hinside).2
    have hle := h.number_add_size_le hroot hv
    omega
  constructor
  · rintro rfl
    refine Option.eq_none_iff_forall_ne_some.2 fun v hv => ?_
    obtain ⟨found, hfound⟩ := find_eq_some_iff_foundAt.1 hv
    obtain rfl : place = [] := by
      cases h.descendsBy
      rfl
    have hself := hbehind hfound found (by rw [hfound.valueAt]; rfl) (List.nil_prefix)
    exact Nat.lt_irrefl _ hself
  · intro v hv
    obtain ⟨found, hfound⟩ := find_eq_some_iff_foundAt.1 hv
    obtain ⟨before, key, e, after, hbelow, -, hnumber, -, hlength, hcarries⟩ :=
      hfound.exists_visit
    obtain ⟨-, s, hs, hmatch⟩ := carries_iff.1 hcarries
    refine ⟨found, before.length, ⟨key, v, e⟩, s, hfound, hnumber, ?_, rfl, hlength.symm, ?_,
      hmatch, fun hinside => ?_, hbehind hfound⟩
    · rw [preOrder_eq_below, hbelow]
      simp
    · rw [List.getLast?_eq_getElem?, hlength, Nat.add_sub_cancel, hs]
    · have hself := hbehind hfound found (by rw [hfound.valueAt]; rfl) hinside
      exact Nat.lt_irrefl _ hself

theorem distinctKeys_detour : detour.DistinctKeys := by
  simp [detour, Value.DistinctKeys, Value.DistinctEntries, Entries.keys]

/-- In `detour` the path does not go straight down. -/
theorem not_descends_detour (y : Value) : ¬ Descends detour ["a", "b", "c"] y := by
  simp [detour, descends_cons_iff, child_object_iff]

/-- The path breaks off below its second segment. -/
theorem breaksOff_detour :
    BreaksOff detour ["a", "b", "c"] 2 [0, 0] (.object [("z", .null)]) where
  lt_length := by decide
  descendsBy := .step (c := (.name "a", _)) rfl (.step (c := (.name "b", _)) rfl .here)
  not_descends := not_descends_detour

/-- In `detour` a path breaks off, and its last segment is found behind all that stands where it
does. -/
theorem find_of_not_descends_detour :
    detour.DistinctKeys ∧ (∀ y, ¬ Descends detour ["a", "b", "c"] y) ∧
      BreaksOff detour ["a", "b", "c"] 2 [0, 0] (.object [("z", .null)]) ∧
      find ["a", "b", "c"] detour = some (.object [("d", .string "far")]) ∧
      ∃ found, FoundAt ["a", "b", "c"] detour found (.object [("d", .string "far")]) ∧
        ¬ [0, 0] <+: found ∧ number detour [0, 0, 0] < number detour found := by
  obtain ⟨found, n, u, s, hfound, -, -, -, -, -, -, hout, hbehind⟩ :=
    ((find_of_not_descends distinctKeys_detour not_descends_detour).2 2 [0, 0] _
      breaksOff_detour).2 _ find_detour
  exact ⟨distinctKeys_detour, not_descends_detour, breaksOff_detour, find_detour, found, hfound,
    hout, hbehind [0, 0, 0] rfl ⟨[0], rfl⟩⟩

end Extraction.Transition
