import Extraction.Proofs.Document.Entries
import Extraction.Proofs.Transition.Matching

/-!
# Extraction.Proofs.Transition.Changes

What any sequence of changes makes of a result.

A change stores a value or removes a key.  On the entries, storing is a `map` that touches
no key, and removing is a `filter`; a change that is refused, or that removes nothing, is
the same `map` or `filter` without any effect.  So a run of changes keeps the entries whose
key it never removes, in their order, and each of them has the value stored last:

* `entries_change_set`, `entries_change_unset` — what one change makes of the entries;
* `entries_changes` — what a run makes of them;
* `changes_spec` — the run, its steps, and the keys that are left.
-/

namespace Extraction.Transition

open Document

/-! ## changes -/

/-- A change of a result. -/
inductive Change where
  | set (key : String) (value : Value)
  | unset (key : String)

/-- What a change answers. -/
inductive Answer where
  /-- A value was stored in place of another. -/
  | replaced (old : Value)
  | refused (e : AccessError)
  /-- The value of the key that was removed, if it was present. -/
  | removed (old : Option Value)

/-- The keys that changes remove. -/
def removedKeys : List Change → List String
  | [] => []
  | .set _ _ :: cs => removedKeys cs
  | .unset key :: cs => key :: removedKeys cs

/-- The values that changes store under a key, in their order. -/
def storedUnder (key : String) : List Change → List Value
  | [] => []
  | .set k value :: cs => if k = key then value :: storedUnder key cs else storedUnder key cs
  | .unset _ :: cs => storedUnder key cs

namespace Results

/-- Makes one change.  A refused change leaves the result as it is. -/
def change (r : Results) : Change → Answer × Results
  | .set key value =>
    match r.set key value with
    | .ok (old, r') => (.replaced old, r')
    | .error e => (.refused e, r)
  | .unset key => (.removed (r.unset key).1, (r.unset key).2)

/-- Makes changes one after the other; answers what each of them answers. -/
def changes (r : Results) : List Change → List Answer × Results
  | [] => ([], r)
  | c :: cs =>
    let (answer, r) := r.change c
    let (answers, r) := r.changes cs
    (answer :: answers, r)

/-- `Results` are given by their entries. -/
theorem eq_of_entries_eq {r s : Results} (h : r.entries = s.entries) : r = s := by
  cases r
  cases s
  cases h
  rfl

/-! ## one change -/

/-- `get` fails just for a key that is not there, and says so. -/
theorem get_eq_error_iff {r : Results} {key : String} {e : AccessError} :
    r.get key = .error e ↔ key ∉ r.keys ∧ e = .notFound key := by
  rw [get, keys, ← Entries.get?_eq_none_iff]
  cases Entries.get? key r.entries <;> simp [eq_comm]

/-- `get` answers for every key that is there. -/
theorem get_eq_ok_of_mem {r : Results} {key : String} (h : key ∈ r.keys) :
    ∃ v, r.get key = .ok v := by
  cases hget : r.get key with
  | ok v => exact ⟨v, rfl⟩
  | error e => exact absurd h (get_eq_error_iff.1 hget).1

/-- A `set` answers the value that was there, and puts the new one in its place. -/
theorem change_set_of_get {r : Results} {key : String} {old : Value} (h : r.get key = .ok old)
    (value : Value) :
    r.change (.set key value) = (.replaced old,
      ⟨Entries.insert key value r.entries, Entries.nodup_keys_insert r.nodup key value⟩) := by
  have hget := get_eq_ok_iff.1 h
  simp [change, set, hget]

/-- A `set` is refused for a key that is not there, and changes nothing. -/
theorem change_set_of_not_mem {r : Results} {key : String} (h : key ∉ r.keys) (value : Value) :
    r.change (.set key value) = (.refused (.outOfRange key), r) := by
  have hget := Entries.get?_eq_none_iff.2 h
  simp [change, set, hget]

/-- Storing replaces the value of one key and touches no other entry. -/
theorem entries_change_set (r : Results) (key : String) (value : Value) :
    (r.change (.set key value)).2.entries =
      r.entries.map fun e => if e.1 = key then (e.1, value) else e := by
  by_cases h : key ∈ r.keys
  · obtain ⟨old, hold⟩ := get_eq_ok_of_mem h
    rw [change_set_of_get hold]
    exact Entries.insert_eq_map r.nodup h value
  · rw [change_set_of_not_mem h]
    exact (Entries.map_ite_eq_self h value).symm

/-- Removing leaves the entries with other keys. -/
theorem entries_change_unset (r : Results) (key : String) :
    (r.change (.unset key)).2.entries = r.entries.filter fun e => e.1 ≠ key :=
  Entries.erase_eq_filter r.nodup key

/-- An `unset` of a key that is not there removes nothing. -/
theorem change_unset_of_not_mem {r : Results} {key : String} (h : key ∉ r.keys) :
    r.change (.unset key) = (.removed none, r) := by
  have hget : Entries.get? key r.entries = none := Entries.get?_eq_none_iff.2 h
  have hentries : (r.change (.unset key)).2 = r := by
    refine eq_of_entries_eq ?_
    rw [entries_change_unset, List.filter_eq_self]
    exact fun e he => decide_eq_true (ne_of_mem_of_not_mem (List.mem_map_of_mem he) h)
  refine Prod.ext ?_ hentries
  simp [change, unset, hget]

/-- Storing succeeds just under a key that is present: the value that was there is answered,
and the new one stands in its place. -/
theorem change_set_replaced_iff {r : Results} {key : String} {value old : Value} :
    (∃ r', r.change (.set key value) = (.replaced old, r') ∧
      r'.entries = r.entries.map fun e => if e.1 = key then (e.1, value) else e) ↔
      r.get key = .ok old := by
  constructor
  · rintro ⟨r', h, -⟩
    by_cases hkey : key ∈ r.keys
    · obtain ⟨v, hv⟩ := get_eq_ok_of_mem hkey
      rw [change_set_of_get hv] at h
      cases h
      exact hv
    · rw [change_set_of_not_mem hkey] at h
      cases h
  · intro hget
    have hentries := entries_change_set r key value
    rw [change_set_of_get hget] at hentries
    exact ⟨_, change_set_of_get hget value, hentries⟩

/-- Storing is refused just under a key that is absent, and then changes nothing. -/
theorem change_set_refused_iff {r r' : Results} {key : String} {value : Value}
    {e : AccessError} :
    r.change (.set key value) = (.refused e, r') ↔
      key ∉ r.keys ∧ e = .outOfRange key ∧ r' = r := by
  constructor
  · intro h
    have hkey : key ∉ r.keys := fun hkey => by
      obtain ⟨v, hv⟩ := get_eq_ok_of_mem hkey
      rw [change_set_of_get hv] at h
      cases h
    rw [change_set_of_not_mem hkey] at h
    cases h
    exact ⟨hkey, rfl, rfl⟩
  · rintro ⟨hkey, rfl, rfl⟩
    exact change_set_of_not_mem hkey value

/-- Removing answers the value of a key that is present, and leaves the other entries. -/
theorem change_unset_some_iff {r : Results} {key : String} {old : Value} :
    (∃ r', r.change (.unset key) = (.removed (some old), r') ∧
      r'.entries = r.entries.filter fun e => e.1 ≠ key) ↔ r.get key = .ok old := by
  rw [get_eq_ok_iff]
  constructor
  · rintro ⟨r', h, -⟩
    exact Answer.removed.inj (congrArg Prod.fst h)
  · intro hget
    refine ⟨(r.change (.unset key)).2, Prod.ext ?_ rfl, entries_change_unset r key⟩
    exact congrArg Answer.removed hget

/-- Removing answers nothing just for a key that is absent, and then changes nothing. -/
theorem change_unset_none_iff {r r' : Results} {key : String} :
    r.change (.unset key) = (.removed none, r') ↔ key ∉ r.keys ∧ r' = r := by
  constructor
  · intro h
    have hkey : key ∉ r.keys :=
      Entries.get?_eq_none_iff.1 (Answer.removed.inj (congrArg Prod.fst h))
    rw [change_unset_of_not_mem hkey] at h
    cases h
    exact ⟨hkey, rfl⟩
  · rintro ⟨hkey, rfl⟩
    exact change_unset_of_not_mem hkey

/-! ## runs of changes -/

/-- Changes that follow others are made to what those have left. -/
theorem changes_append (r : Results) (cs ds : List Change) :
    r.changes (cs ++ ds) =
      ((r.changes cs).1 ++ ((r.changes cs).2.changes ds).1, ((r.changes cs).2.changes ds).2) := by
  induction cs generalizing r with
  | nil => rfl
  | cons c cs ih => simp [changes, ih]

/-- What a run of changes keeps: the entries whose key it never removes, each with the value
it stores last. -/
def kept (cs : List Change) (es : Entries Value) : Entries Value :=
  (es.filter fun e => e.1 ∉ removedKeys cs).map fun e =>
    (e.1, (storedUnder e.1 cs).getLast?.getD e.2)

theorem kept_nil (es : Entries Value) : kept [] es = es := by
  have hall : es.filter (fun e => e.1 ∉ removedKeys []) = es :=
    List.filter_eq_self.2 fun e _ => decide_eq_true List.not_mem_nil
  rw [kept, hall]
  exact List.map_id es

/-- What is `kept` behind a `set` is kept of the entries with the new value. -/
theorem kept_set_cons (key : String) (value : Value) (cs : List Change) (es : Entries Value) :
    kept (.set key value :: cs) es =
      kept cs (es.map fun e => if e.1 = key then (e.1, value) else e) := by
  have hkeys : ∀ e : String × Value, (if e.1 = key then (e.1, value) else e).1 = e.1 :=
    fun e => by split <;> rfl
  rw [kept, kept, List.filter_map, List.map_map]
  refine congrArg₂ List.map (funext fun e => ?_) (List.filter_congr fun e _ => ?_)
  · simp only [Function.comp_apply, hkeys]
    by_cases h : e.1 = key
    · simp [storedUnder, h, List.getLast?_cons]
    · simp [storedUnder, h, Ne.symm h]
  · refine decide_eq_decide.2 ?_
    simp only [hkeys, removedKeys]

/-- What is `kept` behind an `unset` is kept of the entries without the key. -/
theorem kept_unset_cons (key : String) (cs : List Change) (es : Entries Value) :
    kept (.unset key :: cs) es = kept cs (es.filter fun e => e.1 ≠ key) := by
  rw [kept, kept, List.filter_filter]
  refine congrArg₂ List.map (funext fun e => rfl) (List.filter_congr fun e _ => ?_)
  simp [removedKeys, Bool.and_comm]

/-- A run of changes leaves what is `kept`, by induction over the changes. -/
theorem entries_changes (r : Results) (cs : List Change) :
    (r.changes cs).2.entries = kept cs r.entries := by
  induction cs generalizing r with
  | nil => exact (kept_nil r.entries).symm
  | cons c cs ih =>
      have hstep : (r.changes (c :: cs)).2 = ((r.change c).2.changes cs).2 := rfl
      rw [hstep, ih]
      cases c with
      | set key value => rw [entries_change_set, kept_set_cons]
      | unset key => rw [entries_change_unset, kept_unset_cons]

/-- The keys that changes leave are those they do not remove. -/
theorem keys_changes (r : Results) (cs : List Change) :
    (r.changes cs).2.keys = r.keys.filter fun k => k ∉ removedKeys cs := by
  rw [keys, Entries.keys, entries_changes, kept, List.map_map, keys, Entries.keys, List.filter_map]
  rfl

/-- **Changes**: a run of changes leaves the entries whose key it never removes, in their
order, each with the value stored last under its key.  Each step of it goes on from the
state of the steps before: storing succeeds just under a key that is present, is refused
otherwise and then changes nothing; removing answers the value of a present key and does
nothing for an absent one; reading fails just for an absent key.  No later change brings a
key back, nor a new one. -/
theorem changes_spec (r : Results) (cs : List Change) :
    let s := (r.changes cs).2
    (s.entries = (r.entries.filter fun e => e.1 ∉ removedKeys cs).map fun e =>
      (e.1, (storedUnder e.1 cs).getLast?.getD e.2)) ∧
    (∀ c, r.changes (cs ++ [c]) = ((r.changes cs).1 ++ [(s.change c).1], (s.change c).2)) ∧
    (∀ key value old, (∃ s', s.change (.set key value) = (.replaced old, s') ∧
      s'.entries = s.entries.map fun e => if e.1 = key then (e.1, value) else e) ↔
        s.get key = .ok old) ∧
    (∀ key value e s', s.change (.set key value) = (.refused e, s') ↔
      key ∉ s.keys ∧ e = .outOfRange key ∧ s' = s) ∧
    (∀ key old, (∃ s', s.change (.unset key) = (.removed (some old), s') ∧
      s'.entries = s.entries.filter fun e => e.1 ≠ key) ↔ s.get key = .ok old) ∧
    (∀ key s', s.change (.unset key) = (.removed none, s') ↔ key ∉ s.keys ∧ s' = s) ∧
    (∀ key e, s.get key = .error e ↔ key ∉ s.keys ∧ e = .notFound key) ∧
    (∀ ds, (r.changes (cs ++ ds)).2.keys = s.keys.filter fun k => k ∉ removedKeys ds) := by
  intro s
  refine ⟨entries_changes r cs, fun c => ?_, fun key value old => change_set_replaced_iff,
    fun key value e s' => change_set_refused_iff, fun key old => change_unset_some_iff,
    fun key s' => change_unset_none_iff, fun key e => get_eq_error_iff, fun ds => ?_⟩
  · exact changes_append r cs [c]
  · rw [changes_append]
    exact keys_changes s ds

end Results

end Extraction.Transition
