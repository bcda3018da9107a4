import Extraction.Proofs.Transition.Changes
import Extraction.Proofs.Transition.Descent
import Extraction.Proofs.Transition.Stages
import Extraction.Proofs.Transition.Written

/-!
# Extraction.Proofs.Transition.Projection

Projecting a result onto its own keys gives it back.

A result is a document, and its keys are expressions.  A key that is free of delimiters
says nothing but one segment; the first node that carries it is the entry of the result
itself, for all that lies inside the values is too deep, and keys are distinct.  So the
keys, applied in their order, store the entries one after the other, as they stand:

* `token_of_isPlain`, `faults_of_isPlain` — what a plain key says;
* `find_key` — a path of one segment leads to the entry under it, whatever the values hold;
* `stored_keys` — the keys of a result store its entries;
* `apply_keys` — applying the keys of a result to it.
-/

namespace Extraction.Transition

open Document Expression

/-! ## keys as expressions -/

/-- A plain key is the written form of a path of one segment. -/
theorem writable_key {k : String} (h : IsPlain k) : Writable [k] [] none where
  ne_nil := List.cons_ne_nil k []
  segments := by simpa using h
  names := by simp
  aliasName := by simp

/-- A single key without checks and alias is written as itself. -/
theorem write_key (k : String) : write [k] [] none = k := by simp [write]

/-- The token of a plain key leads to the key and stores under it. -/
theorem token_of_isPlain {k : String} (h : IsPlain k) : token k = ⟨k, [k], [], none⟩ := by
  have hwritten := token_write (writable_key h)
  rwa [write_key] at hwritten

/-- A key that `IsPlain` is an expression without faults. -/
theorem faults_of_isPlain {k : String} (h : IsPlain k) : faults k = [] := by
  have hwritten := faults_write (writable_key h)
  rwa [write_key] at hwritten

/-! ## one segment -/

/-- Below an object the subtree of the first entry comes first. -/
theorem below_object_cons (d : Nat) (k : String) (v : Value) (es : List (String × Value)) :
    below d (.object ((k, v) :: es)) = subtree d (.name k, v) ++ below d (.object es) := by
  simp only [below_eq_flatMap, children, named, List.flatMap_cons]

/-- A path of one segment leads to the first entry of that name: the entries before it have
other keys, and what is inside their values lies too deep. -/
theorem find_key (k : String) (es : List (String × Value)) :
    find [k] (.object es) = Entries.get? k es := by
  rw [find_eq_seek]
  induction es with
  | nil => rfl
  | cons e es ih =>
      obtain ⟨name, v⟩ := e
      rw [below_object_cons, Entries.get?]
      by_cases hname : name = k
      · have hcarries : carries [k] 0 ⟨.name name, v, 0⟩ = true :=
          carries_iff.2 ⟨rfl, k, rfl, matches_iff.2 hname⟩
        rw [if_pos hname, subtree, List.cons_append, seek_cons_of_last hcarries rfl]
        rfl
      · have hkey : ∀ c ∈ [(Key.name name, v)], c.1.text ≠ k := by simpa using hname
        have hpassed : ∀ u ∈ subtree 0 (.name name, v), carries [k] 0 u = false := fun u hu =>
          not_carries_of_mem_subtrees rfl hkey (by simpa using hu)
        rw [if_neg hname, seek_append_of_not_carries hpassed, ih]

/-! ## projection -/

/-- Each plain key stores what the object has under it. -/
theorem stored_keys {es : List (String × Value)} (hd : (Entries.keys es).Nodup)
    (hplain : ∀ k ∈ Entries.keys es, IsPlain k) :
    stored (.object es) ((Entries.keys es).map token) = es := by
  have hentry : ∀ e ∈ es, (find (token e.1).path (.object es)).map
      (fun v => ((token e.1).outputName, v)) = some e := fun e he => by
    rw [token_of_isPlain (hplain e.1 (List.mem_map_of_mem he)), find_key,
      Entries.get?_of_mem hd he]
    rfl
  rw [stored, Entries.keys, List.filterMap_map, List.filterMap_map]
  exact (List.filterMap_congr hentry).trans List.filterMap_some

/-- Tokens without checks refuse nothing. -/
theorem findSome?_refusal?_of_isPlain {ks : List String} (hplain : ∀ k ∈ ks, IsPlain k)
    (root : Value) : (ks.map token).findSome? (refusal? root) = none := by
  rw [List.findSome?_eq_none_iff]
  refine List.forall_mem_map.2 fun k hk => ?_
  rw [token_of_isPlain (hplain k hk), refusal?]
  exact Option.bind_eq_none_iff.2 fun v _ => rfl

/-- **Projection**: applying the keys of a result to the result itself, as a document,
succeeds and gives the same entries in the same order, if the result has an entry and its
keys are neither empty nor hold a delimiter.  What the values are does not matter, nor
which keys occur inside them. -/
theorem apply_keys (r : Results) (hne : r.entries ≠ []) (hplain : ∀ k ∈ r.keys, IsPlain k) :
    ∃ a, (apply r.keys r.toValue).2 = .ok a ∧ a.results.entries = r.entries := by
  have hkeys : r.keys ≠ [] := by simpa [Results.keys, Entries.keys] using hne
  have hsource : children r.toValue ≠ [] := by
    simpa [Results.toValue, children, named_eq_map] using hne
  have hproblems : r.keys.flatMap Batch.problemsOf = [] :=
    flatMap_problemsOf_eq_nil_iff.2 fun k hk => faults_of_isPlain (hplain k hk)
  have hstored : stored r.toValue (r.keys.map token) = r.entries := stored_keys r.nodup hplain
  have hmatch : (matchTokens (r.keys.map token) r.toValue).2 = .ok (.ofList r.entries) := by
    rw [matchTokens_eq, findSome?_refusal?_of_isPlain hplain, hstored]
    exact if_neg hne
  refine ⟨⟨r.keys.map token, .ofList r.entries⟩, ?_, Entries.ofList_of_nodup r.nodup⟩
  rw [apply_eq_applyValues, applyValues_expressions, if_neg hkeys, if_neg hsource,
    if_pos hproblems, hmatch]
  rfl

/-- A result whose values hold its own keys, before, beside and below the entries. -/
def nested : Results where
  entries :=
    [("a", .object [("b", .string "inner"), ("a", .array [.object [("c", .null)]])]),
      ("0", .array [.object [("b", .boolean true)], .string "a"]),
      ("b", .null),
      ("c", .object [("0", .number (.int 1)), ("c", .object [])])]
  nodup := by decide

/-- The keys of `nested` collect its entries, containers included. -/
theorem apply_keys_nested :
    nested.entries ≠ [] ∧ (∀ k ∈ nested.keys, IsPlain k) ∧
      ∃ a, (apply ["a", "0", "b", "c"] nested.toValue).2 = .ok a ∧
        a.results.entries = nested.entries := by
  have hne : nested.entries ≠ [] := List.cons_ne_nil _ _
  have hplain : ∀ k ∈ nested.keys, IsPlain k := by decide
  exact ⟨hne, hplain, apply_keys nested hne hplain⟩

end Extraction.Transition
