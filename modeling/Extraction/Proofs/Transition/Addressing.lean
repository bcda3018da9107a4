import Extraction.Proofs.Transition.Descent
import Extraction.Proofs.Transition.Matching
import Extraction.Proofs.Transition.Written
import Extraction.Transition.Apply

/-!
# Extraction.Proofs.Transition.Addressing

Every value of a document has an address: the transition that is written from the keys
on the way to it.

Applying the written form runs the whole pipeline.  The reader takes the keys, names and
alias apart again, the search follows the keys down to the value, and the checks run in
the order of their names, so that the first one to refuse the value is the one with the
least name:

* `find?_resolve` — the first check with a property is that of the first such name;
* `apply_of_find` — one faultless transition that leads to a value;
* `apply_write` — applying the written form of an address.
-/

namespace Extraction.Transition

open Document Expression

/-! ## the first check that refuses -/

/-- Checks that are left out because an earlier name denotes them too do not have the
property either, so the first check that has it belongs to the first name that has it. -/
theorem find?_resolve {p : Assertion → Bool} {seen : List Assertion}
    (h : ∀ a ∈ seen, p a = false) (ns : List String) :
    (resolve seen ns).find? p = ns.findSome? fun n => (Assertion.lookup n).filter p := by
  induction ns generalizing seen with
  | nil => rfl
  | cons n ns ih =>
      rw [resolve, List.findSome?_cons]
      cases hn : Assertion.lookup n with
      | none => exact ih h
      | some a =>
          by_cases hp : p a = true
          · have hseen : a ∉ seen := fun hm => by simp [h a hm] at hp
            have hkeep : (some a).filter p = some a := by simp [hp]
            simp only [hkeep]
            rw [if_neg hseen, List.find?_cons_of_pos hp]
          · have hfalse : p a = false := by simpa using hp
            have hskip : (some a).filter p = none := by simp [hfalse]
            simp only [hskip]
            split
            · exact ih h
            · rw [List.find?_cons_of_neg hp]
              refine ih fun b hb => ?_
              rcases List.mem_cons.1 hb with rfl | hb
              · exact hfalse
              · exact h b hb

/-- The check that the name denotes accepts the value. -/
def Accepts (name : String) (v : Value) : Prop :=
  ∃ a, Assertion.lookup name = some a ∧ a.check v = true

/-- A name of a check has a refusing check just if the check does not accept the value. -/
theorem filter_lookup_eq_none_iff {n : String} {v : Value}
    (hn : n ∈ Assertion.table.map Prod.fst) :
    (Assertion.lookup n).filter (fun a => !a.check v) = none ↔ Accepts n v := by
  obtain ⟨a, ha⟩ := Option.isSome_iff_exists.1 (lookup_isSome_of_mem_table hn)
  rw [Accepts, ha, Option.filter_eq_none_iff]
  simp

/-- No check of the written names refuses the value just if all of them accept it. -/
theorem find?_resolve_sortNames_eq_none_iff {names : List String} {v : Value}
    (hnames : ∀ n ∈ names, n ∈ Assertion.table.map Prod.fst) :
    (resolve [] (sortNames names)).find? (fun a => !a.check v) = none ↔
      ∀ n ∈ names, Accepts n v := by
  rw [find?_resolve (by simp), List.findSome?_eq_none_iff]
  simp only [mem_sortNames]
  exact forall₂_congr fun n hn => filter_lookup_eq_none_iff (hnames n hn)

/-- The check that refuses the value is that of the least written name whose check refuses
it: the names before it in increasing order accept the value. -/
theorem find?_resolve_sortNames_eq_some {names : List String} {v : Value} {a : Assertion}
    (hnames : ∀ n ∈ names, n ∈ Assertion.table.map Prod.fst)
    (h : (resolve [] (sortNames names)).find? (fun a => !a.check v) = some a) :
    ∃ n ∈ names, ¬ Accepts n v ∧ (∀ m ∈ names, ¬ Accepts m v → n ≤ m) ∧
      Assertion.lookup n = some a := by
  rw [find?_resolve (by simp), List.findSome?_eq_some_iff] at h
  obtain ⟨before, n, after, hsplit, hn, hbefore⟩ := h
  have hmem : n ∈ names := by rw [← mem_sortNames, hsplit]; simp
  have hsorted := pairwise_sortNames names
  rw [hsplit, List.pairwise_append, List.pairwise_cons] at hsorted
  refine ⟨n, hmem, ?_, fun m hm hrefuses => ?_, (Option.filter_eq_some_iff.1 hn).1⟩
  · rw [← filter_lookup_eq_none_iff (hnames n hmem), hn]
    exact Option.some_ne_none a
  · rw [← mem_sortNames, hsplit, List.mem_append, List.mem_cons] at hm
    rcases hm with hm | rfl | hm
    · have hnone := hbefore m hm
      have hmn : m ∈ names := by rw [← mem_sortNames, hsplit]; simp [hm]
      exact absurd ((filter_lookup_eq_none_iff (hnames m hmn)).1 hnone) hrefuses
    · exact String.le_refl m
    · exact Std.le_of_lt (hsorted.2.1.1 m hm)

/-! ## applying one transition -/

/-- A document with a child is not empty. -/
theorem isEmpty_eq_false_of_child {v x : Value} {s : String} (h : Child v s x) :
    v.isEmpty = false := by
  cases h with
  | @entry es _ _ hx =>
      have hne : es ≠ [] := List.ne_nil_of_mem hx
      simpa [Value.isEmpty, Value.length] using hne
  | @item xs _ _ hx =>
      have hne : xs ≠ [] := List.ne_nil_of_mem (List.mem_of_getElem? hx)
      simpa [Value.isEmpty, Value.length] using hne

/-- A single transition without faults gets past the checks between reading and matching. -/
theorem admit?_of_faults_eq_nil {e : String} {root : Value} (hfaults : faults e = [])
    (hroot : root.isEmpty = false) :
    admit? [token e] (Batch.empty.read e).2 root = .ok () := by
  have hproblems : Batch.problemsOf e = [] := by rw [Batch.problemsOf, hfaults, List.map_nil]
  simp [admit?, hroot, Batch.finish, Batch.read_eq, Batch.empty, hproblems]

/-- A transition without faults whose path leads to a value of a document that is not empty:
the checks decide. -/
theorem apply_of_find {e : String} {root x : Value} (hfaults : faults e = [])
    (hroot : root.isEmpty = false) (hx : find (token e).path root = some x) :
    (apply [e] root).2 = match rejection? x (token e) with
      | some r => .error (.rejected r)
      | none => .ok ⟨[token e], Results.ofList [((token e).outputName, x)]⟩ := by
  have hrefusal : [token e].findSome? (refusal? root) = rejection? x (token e) := by
    simp [refusal?, hx]
  have hstored : stored root [token e] = [((token e).outputName, x)] := by simp [stored, hx]
  have hmatch := matchTokens_eq root [token e]
  rw [hrefusal, hstored, if_neg (List.cons_ne_nil _ _)] at hmatch
  have hrun : (apply [e] root).2 = (run [token e] (Batch.empty.read e).2 root).2 := by
    simp only [apply, readAll, Batch.read_eq]
  rw [hrun, run, admit?_of_faults_eq_nil hfaults hroot]
  simp only [hmatch]
  cases rejection? x (token e) <;> rfl

/-! ## addresses -/

variable {root x : Value} {keys names : List String} {aliasName : Option String}

/-- A single pair is the single entry of its `Results`. -/
theorem entries_ofList_singleton (k : String) (v : Value) :
    (Results.ofList [(k, v)]).entries = [(k, v)] := rfl

/-- What applying the written form of an address comes to. -/
theorem apply_write_eq (hroot : root.DistinctKeys) (hw : Writable keys names aliasName)
    (hx : Descends root keys x) :
    (apply [write keys names aliasName] root).2 =
      match (resolve [] (sortNames names)).find? (fun a => !a.check x) with
      | some a => .error (.rejected ⟨a, keys.getLast hw.ne_nil, x⟩)
      | none => .ok ⟨[token (write keys names aliasName)],
          Results.ofList [(aliasName.getD (keys.getLast hw.ne_nil), x)]⟩ := by
  have hlast : (token (write keys names aliasName)).searchKey = keys.getLast hw.ne_nil := by
    simp [Token.searchKey, token_write hw, List.getLast?_eq_some_getLast hw.ne_nil]
  have hpos : 0 < keys.length := List.length_pos_iff.2 hw.ne_nil
  obtain ⟨u, hu, hux⟩ := exists_seek_below hroot hpos (i := 0) hx
  have hfind : find (token (write keys names aliasName)).path root = some x := by
    rw [token_write hw, find_eq_seek, hu, Option.map_some, hux]
  have hempty : root.isEmpty = false := by
    cases hx with
    | here => exact absurd rfl hw.ne_nil
    | step hchild _ => exact isEmpty_eq_false_of_child hchild
  rw [apply_of_find (faults_write hw) hempty hfind, rejection?, Token.outputName, hlast]
  simp only [token_write hw]
  cases (resolve [] (sortNames names)).find? (fun a => !a.check x) <;> rfl

/-- **Every value has an address**: in a document whose objects have distinct keys, applying
the transition that is written from the keys on the way to a value succeeds just if every
named check accepts the value.  The result has the value as its only entry, under the alias
or else the last key.  A failure tells the value, the last key, and the check of the least
name whose check refuses the value; names are compared by code points, which is the order
of their bytes. -/
theorem apply_write (hroot : root.DistinctKeys) (hw : Writable keys names aliasName)
    (hx : Descends root keys x) :
    ((∃ applied, (apply [write keys names aliasName] root).2 = .ok applied) ↔
      ∀ n ∈ names, Accepts n x) ∧
    (∀ applied, (apply [write keys names aliasName] root).2 = .ok applied →
      applied.results.entries = [(aliasName.getD (keys.getLast hw.ne_nil), x)]) ∧
    ((¬ ∀ n ∈ names, Accepts n x) →
      ∃ n ∈ names, ¬ Accepts n x ∧ (∀ m ∈ names, ¬ Accepts m x → n ≤ m) ∧
        ∃ a, Assertion.lookup n = some a ∧
          (apply [write keys names aliasName] root).2 =
            .error (.rejected ⟨a, keys.getLast hw.ne_nil, x⟩)) := by
  have happly := apply_write_eq hroot hw hx
  rw [← find?_resolve_sortNames_eq_none_iff hw.names]
  cases hrefuses : (resolve [] (sortNames names)).find? (fun a => !a.check x) with
  | none =>
      simp only [hrefuses] at happly
      refine ⟨by simp [happly], fun applied hok => ?_, by simp⟩
      rw [happly] at hok
      cases hok
      exact entries_ofList_singleton _ x
  | some a =>
      simp only [hrefuses] at happly
      obtain ⟨n, hn, hnot, hleast, hlookup⟩ :=
        find?_resolve_sortNames_eq_some hw.names hrefuses
      exact ⟨by simp [happly], by simp [happly], fun _ => ⟨n, hn, hnot, hleast, a, hlookup, happly⟩⟩

/-- A value that all named checks accept, and the same value under checks of which two refuse
it: `bool` comes before `integer`, though it denotes the check `boolean`. -/
theorem apply_write_decoys :
    (∃ applied, (apply [write ["a", "b", "1", "c"] ["string", "notEmpty", "string"]
        (some "chosen")] decoys).2 = .ok applied ∧
      applied.results.entries = [("chosen", .string "second")]) ∧
    (apply [write ["a", "b", "1", "c"] ["integer", "string", "bool"] none] decoys).2 =
      .error (.rejected ⟨.boolean, "c", .string "second"⟩) := by
  constructor
  · have hw : Writable ["a", "b", "1", "c"] ["string", "notEmpty", "string"] (some "chosen") :=
      ⟨by decide, by decide, by decide, by decide⟩
    obtain ⟨hok, hentries, -⟩ := apply_write distinctKeys_decoys hw descends_decoys
    have haccepts : ∀ n ∈ ["string", "notEmpty", "string"], Accepts n (.string "second") := by
      have hstring : Accepts "string" (.string "second") := ⟨.string, by decide, rfl⟩
      have hnotEmpty : Accepts "notEmpty" (.string "second") := ⟨.notEmpty, by decide, rfl⟩
      simp [hstring, hnotEmpty]
    obtain ⟨applied, happlied⟩ := hok.2 haccepts
    exact ⟨applied, happlied, hentries applied happlied⟩
  · have hw : Writable ["a", "b", "1", "c"] ["integer", "string", "bool"] none :=
      ⟨by decide, by decide, by decide, by decide⟩
    obtain ⟨-, -, herror⟩ := apply_write distinctKeys_decoys hw descends_decoys
    have hlookup : Assertion.lookup "bool" = some .boolean := by decide
    have hbool : ¬ Accepts "bool" (.string "second") := by
      rintro ⟨a, ha, hcheck⟩
      obtain rfl : Assertion.boolean = a := Option.some.inj (hlookup.symm.trans ha)
      cases hcheck
    obtain ⟨n, hn, -, hleast, a, ha, happly⟩ := herror fun h => hbool (h "bool" (by simp))
    have hle : n ≤ "bool" := hleast "bool" (by simp) hbool
    have hname : n = "bool" := by
      simp only [List.mem_cons, List.not_mem_nil, or_false] at hn
      rcases hn with rfl | rfl | rfl
      · exact absurd hle (by decide)
      · exact absurd hle (by decide)
      · rfl
    subst hname
    obtain rfl : Assertion.boolean = a := Option.some.inj (hlookup.symm.trans ha)
    exact happly

end Extraction.Transition
