import Extraction.Proofs.Document.Value
import Extraction.Proofs.Transition.Seek

/-!
# Extraction.Proofs.Transition.Descent

Descending into a document one child for each segment of a path, and why the search
does not miss a value that can be reached so.

The search never returns to a node it has passed, so it could be led astray by a key
that occurs more than once.  Three facts rule that out in a document whose objects have
distinct keys: before the child with the next key there is no other with that key, the
subtrees of the children before it lie deeper than the segment, and what is found inside
a subtree is found before anything behind it:

* `Child.exists_split` — no child before the one that a descent goes to has its key;
* `not_carries_of_mem_subtrees` — the subtrees of other children do not carry a segment;
* `exists_seek_below` — seeking below a value follows the descent from it;
* `find_of_descends` — what can be reached by descent is found.
-/

namespace Extraction.Transition

open Document

/-! ## descent -/

/-- `Child v s x`: `x` is the entry of the object `v` under the name `s`, or the item of
the list `v` whose index has the decimal text `s`. -/
inductive Child : Value → String → Value → Prop
  | entry {es : List (String × Value)} {s : String} {x : Value} :
      (s, x) ∈ es → Child (.object es) s x
  | item {xs : List Value} {i : Nat} {x : Value} :
      xs[i]? = some x → Child (.array xs) (Decimal.text i) x

/-- `Descends v path x`: going from `v` to one child for each segment leads to `x`. -/
inductive Descends : Value → List String → Value → Prop
  | here {v : Value} : Descends v [] v
  | step {v w x : Value} {s : String} {path : List String} :
      Child v s w → Descends w path x → Descends v (s :: path) x

/-- The children of an object are its entries. -/
theorem child_object_iff {es : List (String × Value)} {s : String} {x : Value} :
    Child (.object es) s x ↔ (s, x) ∈ es := by
  constructor
  · rintro ⟨h⟩
    exact h
  · exact .entry

/-- `Descends` along a longer path goes to a child first. -/
theorem descends_cons_iff {v x : Value} {s : String} {path : List String} :
    Descends v (s :: path) x ↔ ∃ w, Child v s w ∧ Descends w path x := by
  constructor
  · rintro (_ | ⟨hchild, hx⟩)
    exact ⟨_, hchild, hx⟩
  · rintro ⟨w, hchild, hx⟩
    exact .step hchild hx

/-! ## the keys of children -/

@[simp] theorem text_name (s : String) : (Key.name s).text = s := rfl

@[simp] theorem text_index (i : Nat) : (Key.index i).text = Decimal.text i := rfl

/-- A key `matches` the segment that is its text, and no other. -/
theorem matches_iff {k : Key} {s : String} : k.matches s = true ↔ k.text = s := by
  cases k with
  | name n => rw [Key.matches, text_name, beq_iff_eq]
  | index i => rw [Key.matches, text_index, beq_iff_eq, eq_comm]

/-- The children of an object have the keys of its entries for names. -/
theorem named_eq_map (es : List (String × Value)) :
    named es = es.map fun e => (.name e.1, e.2) := by
  induction es with
  | nil => rfl
  | cons e es ih => simp [named, ih]

/-- The children of a list have their places for indices. -/
theorem mem_indexed {c : Key × Value} {i : Nat} {xs : List Value} :
    c ∈ indexed i xs ↔ ∃ j, xs[j]? = some c.2 ∧ c.1 = .index (i + j) := by
  induction xs generalizing i with
  | nil => simp [indexed]
  | cons v vs ih =>
      obtain ⟨k, x⟩ := c
      simp only [indexed, List.mem_cons, ih, Prod.mk.injEq]
      constructor
      · rintro (⟨rfl, rfl⟩ | ⟨j, hj, rfl⟩)
        · exact ⟨0, rfl, rfl⟩
        · exact ⟨j + 1, hj, by rw [Nat.add_right_comm, Nat.add_assoc]⟩
      · rintro ⟨j, hj, rfl⟩
        cases j with
        | zero => exact .inl ⟨rfl, (Option.some.inj hj).symm⟩
        | succ j => exact .inr ⟨j, hj, by rw [Nat.add_right_comm, Nat.add_assoc]⟩

/-- Their texts are the decimal texts of the places. -/
theorem map_text_indexed (i : Nat) (xs : List Value) :
    (indexed i xs).map (fun c => c.1.text) = (List.range' i xs.length).map Decimal.text := by
  induction xs generalizing i with
  | nil => rfl
  | cons v vs ih => simp [indexed, List.range'_succ, ih]

/-- Indices have distinct texts. -/
theorem nodup_text_indexed (i : Nat) (xs : List Value) :
    ((indexed i xs).map fun c => c.1.text).Nodup := by
  rw [map_text_indexed]
  have hrange : (List.range' i xs.length).Nodup := List.nodup_range' 1
  exact List.pairwise_map.2
    (List.Pairwise.imp (fun hne heq => hne (Decimal.text_injective heq)) hrange)

/-- Children of one value have distinct keys, also as texts. -/
theorem nodup_text_children {v : Value} (h : v.DistinctKeys) :
    ((children v).map fun c => c.1.text).Nodup := by
  cases v with
  | object es =>
      have hkeys : (children (.object es)).map (fun c => c.1.text) = Entries.keys es := by
        simp [children, named_eq_map, Entries.keys]
      rw [hkeys]
      exact h.1
  | array xs => exact nodup_text_indexed 0 xs
  | _ => exact List.Pairwise.nil

/-- `DistinctKeys` of a document is `DistinctKeys` of every child. -/
theorem distinctKeys_of_mem_children {v : Value} (h : v.DistinctKeys) {c : Key × Value}
    (hc : c ∈ children v) : c.2.DistinctKeys := by
  cases v with
  | object es =>
      rw [children, named_eq_map, List.mem_map] at hc
      obtain ⟨e, he, rfl⟩ := hc
      exact Value.distinctEntries_iff.1 h.2 e he
  | array xs =>
      obtain ⟨j, hj, -⟩ := mem_indexed.1 hc
      exact Value.distinctItems_iff.1 h c.2 (List.mem_of_getElem? hj)
  | _ => simp [children] at hc

/-- A child in the sense of descent is one of the children that the walk visits. -/
theorem Child.exists_mem_children {v x : Value} {s : String} (h : Child v s x) :
    ∃ k : Key, (k, x) ∈ children v ∧ k.text = s := by
  cases h with
  | entry hx =>
      refine ⟨.name s, ?_, rfl⟩
      rw [children, named_eq_map]
      exact List.mem_map.2 ⟨(s, x), hx, rfl⟩
  | @item xs i _ hx => exact ⟨.index i, mem_indexed.2 ⟨i, hx, by simp⟩, rfl⟩

/-- Each of the children that the walk visits is one in the sense of descent. -/
theorem Child.of_mem_children {v x : Value} {k : Key} (h : (k, x) ∈ children v) :
    Child v k.text x := by
  cases v with
  | object es =>
      rw [children, named_eq_map, List.mem_map] at h
      obtain ⟨e, he, heq⟩ := h
      obtain ⟨rfl, rfl⟩ := Prod.mk.inj heq
      exact .entry he
  | array xs =>
      obtain ⟨j, hj, hk⟩ := mem_indexed.1 h
      rw [Nat.zero_add] at hk
      obtain rfl : k = .index j := hk
      exact .item hj
  | _ => simp [children] at h

/-- No child before another one has its key. -/
theorem text_ne_of_children_eq {v : Value} (hv : v.DistinctKeys) {cs ds : List (Key × Value)}
    {d : Key × Value} (hsplit : children v = cs ++ d :: ds) : ∀ c ∈ cs, c.1.text ≠ d.1.text := by
  intro c hc
  have hnodup := nodup_text_children hv
  rw [hsplit, List.map_append, List.map_cons, List.nodup_append] at hnodup
  exact hnodup.2.2 c.1.text (List.mem_map_of_mem hc) d.1.text List.mem_cons_self

/-- No child before the one that a descent goes to has its key. -/
theorem Child.exists_split {v x : Value} {s : String} (h : Child v s x) (hv : v.DistinctKeys) :
    ∃ cs k ds, children v = cs ++ (k, x) :: ds ∧ k.text = s ∧ ∀ c ∈ cs, c.1.text ≠ s := by
  obtain ⟨k, hmem, hk⟩ := h.exists_mem_children
  obtain ⟨cs, ds, hsplit⟩ := List.append_of_mem hmem
  exact ⟨cs, k, ds, hsplit, hk, hk ▸ text_ne_of_children_eq hv hsplit⟩

/-! ## the search follows the descent -/

/-- If none of the children has the key of segment `i`, then no node of their subtrees
carries the segment: the nodes below them are too deep. -/
theorem not_carries_of_mem_subtrees {path : List String} {i : Nat} {s : String}
    {cs : List (Key × Value)} (hs : path[i]? = some s) (hcs : ∀ c ∈ cs, c.1.text ≠ s)
    {v : Visit} (hv : v ∈ cs.flatMap (subtree i)) : carries path i v = false := by
  obtain ⟨c, hc, hv⟩ := List.mem_flatMap.1 hv
  rw [← Bool.not_eq_true, carries_iff, hs]
  rintro ⟨hd, s', hs', hk⟩
  obtain rfl : s = s' := Option.some.inj hs'
  rcases List.mem_cons.1 hv with rfl | hv
  · exact hcs c hc (matches_iff.1 hk)
  · have := le_depth_of_mem_below hv
    omega

/-- Seeking below a value comes to its child with the key of the segment, and goes on below
that child unless the segment is the last one. -/
theorem seek_below_of_split {v w : Value} {k : Key} {s : String} {path : List String} {i : Nat}
    {cs ds : List (Key × Value)} (hsplit : children v = cs ++ (k, w) :: ds)
    (hs : path[i]? = some s) (hk : k.text = s) (hcs : ∀ c ∈ cs, c.1.text ≠ s) :
    seek path i (below i v) =
      if i + 1 = path.length then some ⟨k, w, i⟩
      else seek path (i + 1) (below (i + 1) w ++ ds.flatMap (subtree i)) := by
  have hcarries : carries path i ⟨k, w, i⟩ = true :=
    carries_iff.2 ⟨rfl, s, hs, matches_iff.2 hk⟩
  rw [below_of_children_eq hsplit,
    seek_append_of_not_carries fun u hu => not_carries_of_mem_subtrees hs hcs hu]
  split
  · next hlast => exact seek_cons_of_last hcarries hlast _
  · next hlast => exact seek_cons_of_carries hcarries hlast _

/-- The descent from a value decides what is found among the nodes below it. -/
theorem exists_seek_below {v x : Value} {path : List String} {i : Nat} (hv : v.DistinctKeys)
    (hi : i < path.length) (hx : Descends v (path.drop i) x) :
    ∃ u, seek path i (below i v) = some u ∧ u.value = x := by
  induction hrest : path.drop i generalizing v i with
  | nil =>
      have := List.drop_eq_nil_iff.1 hrest
      omega
  | cons s rest ih =>
      have hs : path[i]? = some s := by rw [← List.head?_drop, hrest, List.head?_cons]
      have hdrop : path.drop (i + 1) = rest := by rw [← List.tail_drop, hrest, List.tail_cons]
      rw [hrest] at hx
      cases hx with
      | @step _ w _ _ _ hchild hx =>
          -- keys are distinct: nothing before this child carries the segment
          obtain ⟨cs, k, ds, hsplit, hk, hcs⟩ := hchild.exists_split hv
          rw [seek_below_of_split hsplit hs hk hcs]
          split
          · next hlast =>
            have hnil : rest = [] := by
              rw [← hdrop]
              exact List.drop_eq_nil_iff.2 (by omega)
            subst hnil
            cases hx
            exact ⟨⟨k, x, i⟩, rfl, rfl⟩
          · next hlast =>
            have hmem : (k, w) ∈ children v := by simp [hsplit]
            have hw : w.DistinctKeys := distinctKeys_of_mem_children hv hmem
            obtain ⟨u, hu, hux⟩ := ih hw (by omega) (hdrop ▸ hx) hdrop
            exact ⟨u, seek_append_of_eq_some hu _, hux⟩

/-- **No value is missed**: in a document whose objects have distinct keys, a value that
can be reached by descent along a path is the value that `find` answers. -/
theorem find_of_descends {root x : Value} {path : List String} (hroot : root.DistinctKeys)
    (hpath : path ≠ []) (hx : Descends root path x) : find path root = some x := by
  have hpos : 0 < path.length := List.length_pos_iff.2 hpath
  obtain ⟨u, hu, hux⟩ := exists_seek_below hroot hpos (i := 0) hx
  rw [find_eq_seek, hu, Option.map_some, hux]

/-- A document in which the keys of the path `a>b>1>c` also stand before, beside and behind
the value at its end. -/
def decoys : Value :=
  .object
    [("q", .object [("a", .object [("b", .string "deep")]), ("c", .string "early")]),
      ("a", .object
        [("c", .string "beside"),
          ("b", .array [.object [("c", .string "first")], .object [("c", .string "second")]])]),
      ("b", .array [.null, .object [("c", .string "late")]])]

theorem distinctKeys_decoys : decoys.DistinctKeys := by
  simp [decoys, Value.DistinctKeys, Value.DistinctEntries, Value.DistinctItems, Entries.keys]

/-- Past the decoys a path goes straight down. -/
theorem descends_decoys : Descends decoys ["a", "b", "1", "c"] (.string "second") := by
  have hone : "1" = Decimal.text 1 := by
    rw [Decimal.text, Decimal.digits_of_lt (by decide)]
    decide
  rw [hone]
  exact .step (.entry (.tail _ (.head _))) (.step (.entry (.tail _ (.head _)))
    (.step (.item rfl) (.step (.entry (.head _)) .here)))

/-- In `decoys` other nodes carry the first segments too, and the value that is found stands where
the path goes straight down. -/
theorem find_of_descends_decoys :
    decoys.DistinctKeys ∧ Descends decoys ["a", "b", "1", "c"] (.string "second") ∧
      find ["a", "b", "1", "c"] decoys = some (.string "second") :=
  ⟨distinctKeys_decoys, descends_decoys,
    find_of_descends distinctKeys_decoys (by decide) descends_decoys⟩

end Extraction.Transition
