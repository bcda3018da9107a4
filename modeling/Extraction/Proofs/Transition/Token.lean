import Extraction.Proofs.Transition.Faults
import Mathlib.Data.List.Infix
import Mathlib.Data.List.TakeWhile

/-!
# Extraction.Proofs.Transition.Token

What holds of every token that is read, whatever the expression.

The delimiters of an expression can come in any order and number, and a token is read from it
in any case.  The path has the segments before the last `>` that carry no suffix, and behind
them the key of the last one; so it is never empty, and what is missing in it shows in its
length:

* `keys_concat`, `exists_path_eq` — the segments that a path is made of;
* `length_path_eq_iff` — when none of them is left out;
* `of_readAlias` — an alias is a text without `|`;
* `wellFormed_read` — a token is well-formed, also that of an expression with faults.
-/

namespace Extraction.Transition.Expression

open Text

/-! ## the path -/

/-- The segments of an expression before its last `>`. -/
def earlier (cs : List Char) : List (List Char) := (split pathDelimiter cs).dropLast

/-- There are as many `earlier` segments as there are `>`. -/
theorem length_earlier (cs : List Char) : (earlier cs).length = cs.count pathDelimiter := by
  rw [earlier, List.length_dropLast, length_split, Nat.add_sub_cancel]

theorem any_isSuffixDelimiter_eq_false_iff {cs : List Char} :
    cs.any isSuffixDelimiter = false ↔ assertionDelimiter ∉ cs ∧ aliasDelimiter ∉ cs := by
  constructor
  · intro h
    rw [List.any_eq_false] at h
    exact ⟨fun ha => h _ ha rfl, fun hl => h _ hl rfl⟩
  · rintro ⟨ha, hl⟩
    rw [List.any_eq_false]
    exact fun c hc => Bool.eq_false_iff.1 (isSuffixDelimiter_eq_false ha hl c hc)

/-- Of the segments before the last one those are kept that carry no suffix. -/
theorem keys_concat (ks : List (List Char)) (k : List Char) :
    keys (ks ++ [k]) = ks.filter (fun s => !s.any isSuffixDelimiter) ++ [key k] := by
  induction ks with
  | nil => rfl
  | cons l ls ih =>
      rw [List.cons_append, keys_cons_of_ne_nil l (by simp), ih, List.filter_cons]
      cases l.any isSuffixDelimiter <;> rfl

/-- A path is made of the `earlier` segments without suffixes and the key of the last one. -/
theorem exists_path_eq (cs : List Char) :
    ∃ k ∈ split pathDelimiter cs,
      path cs = (earlier cs).filter (fun s => !s.any isSuffixDelimiter) ++ [key k] := by
  have hne := split_ne_nil pathDelimiter cs
  refine ⟨_, List.getLast_mem hne, ?_⟩
  rw [path, earlier, ← keys_concat, List.dropLast_concat_getLast hne]

/-- A path has at most one segment more than there are `>`. -/
theorem length_path_le (cs : List Char) : (path cs).length ≤ cs.count pathDelimiter + 1 := by
  obtain ⟨k, -, hpath⟩ := exists_path_eq cs
  rw [hpath, List.length_append, List.length_singleton, ← length_earlier]
  exact Nat.succ_le_succ (List.length_filter_le _ _)

/-- It has that many just if no `earlier` segment has a suffix. -/
theorem length_path_eq_iff {cs : List Char} : (path cs).length = cs.count pathDelimiter + 1 ↔
    ∀ s ∈ earlier cs, assertionDelimiter ∉ s ∧ aliasDelimiter ∉ s := by
  obtain ⟨k, -, hpath⟩ := exists_path_eq cs
  rw [hpath, List.length_append, List.length_singleton, ← length_earlier,
    Nat.add_right_cancel_iff, List.length_filter_eq_length_iff]
  simp only [Bool.not_eq_true', any_isSuffixDelimiter_eq_false_iff]

/-- The key of a segment ends before its suffix. -/
theorem of_mem_key {c : Char} {s : List Char} (h : c ∈ key s) :
    c ∈ s ∧ isSuffixDelimiter c = false := by
  rw [key, before] at h
  exact ⟨(List.takeWhile_prefix _).subset h, by simpa using List.mem_takeWhile_imp h⟩

/-- No segment of a path holds a delimiter. -/
theorem not_mem_of_mem_path {s cs : List Char} (hs : s ∈ path cs) :
    pathDelimiter ∉ s ∧ assertionDelimiter ∉ s ∧ aliasDelimiter ∉ s := by
  obtain ⟨k, hk, hpath⟩ := exists_path_eq cs
  rw [hpath, List.mem_append, List.mem_filter, Bool.not_eq_true', List.mem_singleton] at hs
  rcases hs with ⟨hs, hany⟩ | rfl
  · exact ⟨not_mem_of_mem_split (List.mem_of_mem_dropLast hs),
      any_isSuffixDelimiter_eq_false_iff.1 hany⟩
  · refine ⟨fun hc => not_mem_of_mem_split hk (of_mem_key hc).1, fun hc => ?_, fun hc => ?_⟩
    · exact absurd (of_mem_key hc).2 (by decide)
    · exact absurd (of_mem_key hc).2 (by decide)

/-! ## the alias -/

/-- An alias is not empty and holds no `|`. -/
theorem of_readAlias {cs : List Char} {a : String} (h : (readAlias cs).1 = some a) :
    a ≠ "" ∧ aliasDelimiter ∉ a.toList := by
  rw [readAlias] at h
  split at h
  · cases h
  · next p name hsplit =>
    by_cases hname : name = []
    · subst hname
      cases h
    · rw [if_neg (by simpa using hname)] at h
      obtain rfl : String.ofList name = a := Option.some.inj h
      have hmem : name ∈ split aliasDelimiter cs := by simp [hsplit]
      exact ⟨by simpa using hname, by simpa using not_mem_of_mem_split hmem⟩
  · cases h

/-! ## the token -/

/-- What holds of the token of an expression `e`. -/
structure WellFormed (e : String) (t : Token) : Prop where
  path_ne_nil : t.path ≠ []
  length_le : t.path.length ≤ e.toList.count pathDelimiter + 1
  /-- No segment is left out just if none before the last `>` carries a suffix. -/
  length_eq_iff : t.path.length = e.toList.count pathDelimiter + 1 ↔
    ∀ s ∈ earlier e.toList, assertionDelimiter ∉ s ∧ aliasDelimiter ∉ s
  segments : ∀ s ∈ t.path,
    pathDelimiter ∉ s.toList ∧ assertionDelimiter ∉ s.toList ∧ aliasDelimiter ∉ s.toList
  assertions : t.assertions.Nodup
  aliasName : ∀ a ∈ t.aliasName, a ≠ "" ∧ aliasDelimiter ∉ a.toList

/-- **Well-formed tokens**: whatever the expression and whatever was read before it, the token
that is read has a path that is not empty, with at most one segment more than the expression has
`>`, and with that many just if no segment before the last `>` holds a `#` or a `|`.  Its
segments are free of delimiters, its checks are distinct, and its alias, if it has one, is not
empty and free of `|`. -/
theorem wellFormed_read (b : Batch) (e : String) : WellFormed e (b.read e).1 where
  path_ne_nil := by
    obtain ⟨k, -, hpath⟩ := exists_path_eq e.toList
    simp [Batch.read_eq, token, hpath]
  length_le := by
    simpa [Batch.read_eq, token] using length_path_le e.toList
  length_eq_iff := by
    simpa [Batch.read_eq, token] using length_path_eq_iff
  segments := by
    rw [Batch.read_eq]
    refine List.forall_mem_map.2 fun s hs => ?_
    rw [String.toList_ofList]
    exact not_mem_of_mem_path hs
  assertions := by
    rw [Batch.read_eq]
    exact nodup_resolve [] (names e.toList)
  aliasName a ha := by
    rw [Batch.read_eq] at ha
    exact of_readAlias ha

example : (token "a|b>c#int#x>d>|").path = ["d", ""] := by decide

end Extraction.Transition.Expression
