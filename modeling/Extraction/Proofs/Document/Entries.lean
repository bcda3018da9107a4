import Extraction.Document.Entries
import Mathlib.Data.List.Induction
import Mathlib.Data.List.Perm.Subperm

/-!
# Extraction.Proofs.Document.Entries

What is left of a sequence of pairs that are stored one after the other: the place of a
key is that of its first pair, its value that of its last pair.  Where keys are distinct,
storing in place is a `map` and removing is a `filter`.

* `keys_ofList` — the distinct keys, in the order of their first pairs;
* `get?_ofList_eq_some_iff` — the value under a key is that of its last pair;
* `eq_of_get?_eq` — keys in order and their values determine the entries;
* `get?_of_mem`, `ofList_of_nodup` — distinct keys find their entries, and are stored as
  they stand;
* `length_ofList_eq_iff` — no pair is stored over another one just if keys are distinct;
* `insert_eq_map`, `erase_eq_filter` — one entry is replaced, or left out.
-/

namespace Extraction.Document.Entries

variable {α : Type}

/-- `ofList` takes the pairs in their order: the last one is inserted last. -/
theorem ofList_append_singleton (ps : List (String × α)) (p : String × α) :
    ofList (ps ++ [p]) = insert p.1 p.2 (ofList ps) := by
  rw [ofList, List.foldl_append]
  rfl

/-- In `ofList` a key stands where it stands first among the pairs. -/
theorem keys_ofList (ps : List (String × α)) : keys (ofList ps) = (ps.map Prod.fst).eraseDups := by
  induction ps using List.reverseRec with
  | nil => rfl
  | append_singleton ps p ih =>
      rw [ofList_append_singleton, keys_insert, ih, List.map_append, List.eraseDups_append]
      by_cases h : p.1 ∈ ps.map Prod.fst
      · rw [if_pos (List.mem_eraseDups.2 h)]
        simp [List.removeAll, h]
      · rw [if_neg fun hm => h (List.mem_eraseDups.1 hm)]
        have hone : ([p].map Prod.fst).removeAll (ps.map Prod.fst) = [p.1] := by
          simpa [List.removeAll] using h
        rw [hone]
        rfl

/-- `(k, v)` is the last pair with the key `k`. -/
def IsLast (ps : List (String × α)) (k : String) (v : α) : Prop :=
  ∃ before after, ps = before ++ (k, v) :: after ∧ ∀ q ∈ after, q.1 ≠ k

theorem not_isLast_nil {k : String} {v : α} : ¬ IsLast [] k v := by
  rintro ⟨before, after, h, -⟩
  simp at h

/-- A further pair is the last one of its own key, and of no other key. -/
theorem isLast_append_singleton {ps : List (String × α)} {p : String × α} {k : String} {v : α} :
    IsLast (ps ++ [p]) k v ↔ p = (k, v) ∨ p.1 ≠ k ∧ IsLast ps k v := by
  constructor
  · rintro ⟨before, after, h, hafter⟩
    rcases List.eq_nil_or_concat after with rfl | ⟨after, q, rfl⟩
    · exact .inl (List.append_inj_right' h rfl |> List.singleton_inj.1)
    · rw [List.concat_eq_append] at h hafter
      rw [← List.cons_append, ← List.append_assoc] at h
      obtain rfl : p = q := List.singleton_inj.1 (List.append_inj_right' h rfl)
      refine .inr ⟨hafter p (by simp), before, after, List.append_inj_left' h rfl, ?_⟩
      exact fun r hr => hafter r (by simp [hr])
  · rintro (rfl | ⟨hp, before, after, rfl, hafter⟩)
    · exact ⟨ps, [], rfl, by simp⟩
    · refine ⟨before, after ++ [p], by simp, fun r hr => ?_⟩
      rcases List.mem_append.1 hr with hr | hr
      · exact hafter r hr
      · exact List.mem_singleton.1 hr ▸ hp

/-- In `ofList` a key has the value of its last pair. -/
theorem get?_ofList_eq_some_iff {ps : List (String × α)} {k : String} {v : α} :
    get? k (ofList ps) = some v ↔ IsLast ps k v := by
  induction ps using List.reverseRec with
  | nil => simp [ofList, get?, not_isLast_nil]
  | append_singleton ps p ih =>
      obtain ⟨k', v'⟩ := p
      rw [ofList_append_singleton, get?_insert, isLast_append_singleton, ← ih]
      by_cases h : k = k'
      · simp [h]
      · simp [h, Ne.symm h]

/-- Entries are given by their keys in order and what `get?` answers for each. -/
theorem eq_of_get?_eq {es es' : Entries α} (hkeys : keys es = keys es') (hd : (keys es).Nodup)
    (hget : ∀ k, get? k es = get? k es') : es = es' := by
  induction es generalizing es' with
  | nil =>
      cases es' with
      | nil => rfl
      | cons e es' => simp [keys] at hkeys
  | cons e es ih =>
      cases es' with
      | nil => simp [keys] at hkeys
      | cons e' es' =>
          obtain ⟨k, v⟩ := e
          obtain ⟨k', v'⟩ := e'
          obtain ⟨rfl, htail⟩ : k = k' ∧ keys es = keys es' := List.cons.inj hkeys
          obtain ⟨hk, hd⟩ := List.nodup_cons.1 hd
          have hv : v = v' := by simpa [get?] using hget k
          have hes : es = es' := by
            refine ih htail hd fun m => ?_
            by_cases hm : k = m
            · subst hm
              rw [get?_eq_none_iff.2 hk]
              exact (get?_eq_none_iff.2 (htail ▸ hk)).symm
            · simpa [get?, hm] using hget m
          rw [hv, hes]

/-- What `get?` answers stands among the entries. -/
theorem mem_of_get?_eq_some {es : Entries α} {k : String} {v : α} (h : get? k es = some v) :
    (k, v) ∈ es := by
  induction es with
  | nil => cases h
  | cons e es ih =>
      by_cases hk : e.1 = k
      · rw [get?, if_pos hk, Option.some.injEq] at h
        subst hk h
        exact List.mem_cons_self
      · rw [get?, if_neg hk] at h
        exact List.mem_cons_of_mem e (ih h)

/-! ## distinct keys -/

/-- `insert` puts a new key at the end. -/
theorem insert_of_not_mem {es : Entries α} {key : String} (h : key ∉ keys es) (value : α) :
    insert key value es = es ++ [(key, value)] := by
  induction es with
  | nil => rfl
  | cons e es ih =>
      obtain ⟨hne, hnot⟩ := List.ne_and_not_mem_of_not_mem_cons h
      rw [insert, if_neg (Ne.symm hne), ih hnot, List.cons_append]

/-- Where keys are distinct, each entry is the one that is found under its key. -/
theorem get?_of_mem {es : Entries α} (hd : (keys es).Nodup) {e : String × α} (he : e ∈ es) :
    get? e.1 es = some e.2 := by
  induction es with
  | nil => cases he
  | cons e' es ih =>
      obtain ⟨hk, hd⟩ := List.nodup_cons.1 hd
      rcases List.mem_cons.1 he with rfl | he
      · exact if_pos rfl
      · have hne : e'.1 ≠ e.1 := (ne_of_mem_of_not_mem (List.mem_map_of_mem he) hk).symm
        rw [get?, if_neg hne, ih hd he]

/-- Pairs with distinct keys are stored as they stand. -/
theorem ofList_of_nodup {ps : List (String × α)} (h : (ps.map Prod.fst).Nodup) :
    ofList ps = ps := by
  induction ps using List.reverseRec with
  | nil => rfl
  | append_singleton ps p ih =>
      rw [List.map_append, List.nodup_append] at h
      obtain ⟨hps, -, hdisjoint⟩ := h
      have hp : p.1 ∉ keys ps := fun hm => hdisjoint p.1 hm p.1 (by simp) rfl
      rw [ofList_append_singleton, ih hps, insert_of_not_mem hp]

/-- There are as many entries as pairs only where no two pairs share a key. -/
theorem length_ofList_eq_iff {ps : List (String × α)} :
    (ofList ps).length = ps.length ↔ (ps.map Prod.fst).Nodup := by
  constructor
  · intro h
    have hmem : keys (ofList ps) ⊆ ps.map Prod.fst := by
      intro k hk
      rw [keys_ofList] at hk
      exact List.mem_eraseDups.1 hk
    have hlength : (ps.map Prod.fst).length ≤ (keys (ofList ps)).length := by
      simp only [keys, List.length_map, h, Nat.le_refl]
    have hperm := ((nodup_keys_ofList ps).subperm hmem).perm_of_length_le hlength
    exact hperm.nodup_iff.1 (nodup_keys_ofList ps)
  · intro h
    rw [ofList_of_nodup h]

/-- What is stored was one of the pairs. -/
theorem mem_of_mem_ofList {ps : List (String × α)} {e : String × α} (h : e ∈ ofList ps) :
    e ∈ ps := by
  obtain ⟨before, after, rfl, -⟩ :=
    get?_ofList_eq_some_iff.1 (get?_of_mem (nodup_keys_ofList ps) h)
  exact List.mem_append_right before List.mem_cons_self

/-! ## one entry -/

/-- Where a key is absent, no entry has it. -/
theorem map_ite_eq_self {es : Entries α} {key : String} (h : key ∉ keys es) (value : α) :
    (es.map fun e => if e.1 = key then (e.1, value) else e) = es := by
  conv_rhs => rw [← List.map_id es]
  refine List.map_congr_left fun e he => ?_
  have hne : e.1 ≠ key := ne_of_mem_of_not_mem (List.mem_map_of_mem he) h
  exact if_neg hne

/-- `insert` leaves a key that is there in its place, with the new value. -/
theorem insert_eq_map {es : Entries α} (hd : (keys es).Nodup) {key : String}
    (h : key ∈ keys es) (value : α) :
    insert key value es = es.map fun e => if e.1 = key then (e.1, value) else e := by
  induction es with
  | nil => cases h
  | cons e es ih =>
      obtain ⟨k, v⟩ := e
      obtain ⟨hk, hd⟩ := List.nodup_cons.1 hd
      by_cases hkey : k = key
      · subst hkey
        have hrest := map_ite_eq_self hk value
        simp [insert, hrest]
      · have hmem : key ∈ keys es := (List.mem_cons.1 h).resolve_left (Ne.symm hkey)
        simp [insert, hkey, ih hd hmem]

/-- `erase` takes a key out and leaves the others as they are. -/
theorem erase_eq_filter {es : Entries α} (hd : (keys es).Nodup) (key : String) :
    erase key es = es.filter fun e => e.1 ≠ key := by
  induction es with
  | nil => rfl
  | cons e es ih =>
      obtain ⟨k, v⟩ := e
      obtain ⟨hk, hd⟩ := List.nodup_cons.1 hd
      by_cases hkey : k = key
      · subst hkey
        have hrest : es.filter (fun e => e.1 ≠ k) = es := by
          rw [List.filter_eq_self]
          exact fun e he => decide_eq_true (ne_of_mem_of_not_mem (List.mem_map_of_mem he) hk)
        rw [List.filter_cons_of_neg (by simp), hrest, erase, if_pos rfl]
      · simp [erase, hkey, ih hd]

end Extraction.Document.Entries
