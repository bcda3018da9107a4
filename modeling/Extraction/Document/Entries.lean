/-!
# Extraction.Document.Entries

Entries in insertion order: a list of pairs of a key and a value, read as a map.
Storing under a key that is present replaces its value where it stands, storing
under a new key appends.

* `keys_insert`, `keys_erase` — the keys after an insertion and after a removal;
* `get?_insert`, `get?_erase` — what is found after them;
* `nodup_keys_insert`, `nodup_keys_ofList` — distinct keys stay distinct.
-/

namespace Extraction.Document

/-- Keys with their values, in the order in which the keys were first stored. -/
abbrev Entries (α : Type) := List (String × α)

namespace Entries

variable {α : Type}

def keys (es : Entries α) : List String := es.map Prod.fst

def values (es : Entries α) : List α := es.map Prod.snd

/-- The value stored under a key. -/
def get? (key : String) : Entries α → Option α
  | [] => none
  | (k, v) :: es => if k = key then some v else get? key es

/-- Stores a value: in place if the key is present, else at the end. -/
def insert (key : String) (value : α) : Entries α → Entries α
  | [] => [(key, value)]
  | (k, v) :: es => if k = key then (k, value) :: es else (k, v) :: insert key value es

/-- Removes a key; the other entries keep their order. -/
def erase (key : String) : Entries α → Entries α
  | [] => []
  | (k, v) :: es => if k = key then es else (k, v) :: erase key es

/-- Stores pairs one after the other by `insert`, starting with nothing. -/
def ofList (ps : List (String × α)) : Entries α :=
  ps.foldl (fun es p => insert p.1 p.2 es) []

/-! ## storing -/

/-- `insert` adds a key at the end, unless it is there. -/
theorem keys_insert (key : String) (value : α) (es : Entries α) :
    keys (insert key value es) = if key ∈ keys es then keys es else keys es ++ [key] := by
  induction es with
  | nil => simp [insert, keys]
  | cons e es ih =>
    obtain ⟨k, v⟩ := e
    by_cases h : k = key
    · simp [insert, keys, h]
    · have h' : ¬ key = k := fun e => h e.symm
      simp only [insert, h, if_false, keys, List.map_cons, List.mem_cons, h', false_or]
      simp only [keys] at ih
      rw [ih]
      by_cases hm : key ∈ List.map Prod.fst es <;> simp [hm]

/-- `insert` changes what `get?` answers for its own key only. -/
theorem get?_insert (key : String) (value : α) (es : Entries α) (k : String) :
    get? k (insert key value es) = if k = key then some value else get? k es := by
  induction es with
  | nil => simp [insert, get?, eq_comm]
  | cons e es ih =>
    obtain ⟨k', v⟩ := e
    by_cases h : k' = key
    · by_cases hk : k = key
      · simp [insert, get?, h, hk]
      · simp [insert, get?, h, hk, Ne.symm hk]
    · by_cases hk : k' = k
      · subst hk; simp [insert, get?, h]
      · simp only [insert, h, if_false, get?, hk]
        exact ih

/-- `get?` answers nothing just for a key that is not there. -/
theorem get?_eq_none_iff {key : String} {es : Entries α} : get? key es = none ↔ key ∉ keys es := by
  induction es with
  | nil => simp [get?, keys]
  | cons e es ih =>
    obtain ⟨k, v⟩ := e
    by_cases h : k = key
    · simp [get?, keys, h]
    · simp only [get?, h, if_false, ih, keys, List.map_cons, List.mem_cons, not_or]
      exact ⟨fun hk => ⟨Ne.symm h, hk⟩, fun hk => hk.2⟩

/-- Keys stay distinct under `insert`. -/
theorem nodup_keys_insert {es : Entries α} (h : (keys es).Nodup) (key : String) (value : α) :
    (keys (insert key value es)).Nodup := by
  rw [keys_insert]
  split
  · exact h
  · rename_i hk
    exact List.nodup_append.2 ⟨h, by simp, by simp; intro a ha e; exact hk (e ▸ ha)⟩

/-- The keys of `ofList` are distinct, whatever the pairs. -/
theorem nodup_keys_ofList (ps : List (String × α)) : (keys (ofList ps)).Nodup := by
  suffices ∀ es : Entries α, (keys es).Nodup →
      (keys (ps.foldl (fun es p => insert p.1 p.2 es) es)).Nodup from this [] (by simp [keys])
  induction ps with
  | nil => intro es h; exact h
  | cons p ps ih => intro es h; exact ih _ (nodup_keys_insert h p.1 p.2)

/-! ## removing -/

/-- `erase` takes a key from the keys. -/
theorem keys_erase (key : String) (es : Entries α) : keys (erase key es) = (keys es).erase key := by
  induction es with
  | nil => rfl
  | cons e es ih =>
    obtain ⟨k, v⟩ := e
    by_cases h : k = key
    · simp [erase, keys, h]
    · simp only [erase, h, if_false, keys, List.map_cons]
      rw [List.erase_cons_tail (by simpa using h)]
      simp only [keys] at ih
      rw [ih]

/-- `erase` changes what `get?` answers for its own key only. -/
theorem get?_erase {es : Entries α} (hd : (keys es).Nodup) (key k : String) :
    get? k (erase key es) = if k = key then none else get? k es := by
  induction es with
  | nil => simp [erase, get?]
  | cons e es ih =>
    obtain ⟨m, v⟩ := e
    obtain ⟨hm, hd⟩ := List.nodup_cons.1 hd
    by_cases h : m = key
    · subst h
      by_cases hk : k = m
      · subst hk; simpa [erase] using get?_eq_none_iff.2 hm
      · simp [erase, get?, hk, Ne.symm hk]
    · simp only [erase, h, if_false, get?, ih hd]
      by_cases hk : m = k
      · subst hk; simp [h]
      · simp [hk]

/-- Keys stay distinct under `erase`. -/
theorem nodup_keys_erase {es : Entries α} (h : (keys es).Nodup) (key : String) :
    (keys (erase key es)).Nodup := by
  rw [keys_erase]
  exact h.erase key

end Entries

end Extraction.Document
