import Extraction.Proofs.Decimal.Digits
import Extraction.Proofs.Transition.Shape
import Mathlib.Data.List.Nodup

/-!
# Extraction.Proofs.Transition.Index

The segments of a path that lead to the items of a list.

A segment is compared with the text that is written for an index.  Read the other way round,
it has to be the numeral of the index: digits alone, with no sign, no padding and no digits of
other scripts.  A number has one numeral and a numeral denotes one number, so a segment and an
item of a list determine each other:

* `index_matches_iff` — the segments that match an index;
* `countP_matches_le_one` — a segment matches at most one item of a list;
* `existsUnique_matches` — a key is matched by one segment;
* `matches_index` — all three.
-/

namespace Extraction.Transition

open Document

/-- An index `matches` the one numeral of its value. -/
theorem index_matches_iff {i : Nat} {s : String} :
    (Key.index i).matches s = true ↔
      Decimal.IsNumeral s.toList ∧ Decimal.value s.toList = i := by
  rw [matches_iff, text_index, Decimal.text, ← String.toList_inj, String.toList_ofList]
  exact Decimal.digits_eq_iff

/-- The children that a segment matches are those whose keys have its text. -/
theorem countP_matches (s : String) (cs : List (Key × Value)) :
    cs.countP (fun c => c.1.matches s) = (cs.map fun c => c.1.text).count s := by
  rw [List.count, List.countP_map]
  refine List.countP_congr fun c _ => ?_
  rw [matches_iff, Function.comp_apply, beq_iff_eq]

/-- No two items of a list have an index that matches the same segment. -/
theorem countP_matches_le_one (xs : List Value) (s : String) :
    (children (.array xs)).countP (fun c => c.1.matches s) ≤ 1 := by
  rw [countP_matches]
  exact List.nodup_iff_count_le_one.1 (nodup_text_indexed 0 xs) s

/-- Each key has one segment that it matches. -/
theorem existsUnique_matches (k : Key) : ∃! s : String, k.matches s = true := by
  simp only [matches_iff, existsUnique_eq']

/-- **Indices**: a segment matches the index of an item just if it is digits that denote the
index, without a zero at the front unless it is `0` itself.  The items of a list have their
indices for keys; so a segment matches at most one item of a list, and each item is matched by
exactly one segment. -/
theorem matches_index :
    (∀ (i : Nat) (s : String), (Key.index i).matches s = true ↔
      Decimal.IsNumeral s.toList ∧ Decimal.value s.toList = i) ∧
    (∀ (xs : List Value) (i : Nat),
      (children (.array xs))[i]? = xs[i]?.map fun x => (Key.index i, x)) ∧
    (∀ (xs : List Value) (s : String),
      (children (.array xs)).countP (fun c => c.1.matches s) ≤ 1) ∧
    ∀ xs : List Value, ∀ c ∈ children (.array xs), ∃! s : String, c.1.matches s = true := by
  refine ⟨fun i s => index_matches_iff, fun xs i => ?_, countP_matches_le_one,
    fun xs c _ => existsUnique_matches c.1⟩
  rw [children, getElem?_indexed, Nat.zero_add]

example : ["12", "+12", "012", ""].map (Key.index 12).matches = [true, false, false, false] := by
  cbv

end Extraction.Transition
