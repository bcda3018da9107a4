import Extraction.Proofs.Decimal.Digits
import Extraction.Proofs.Document.Integer
import Extraction.Proofs.Yaml.Word

/-!
# Extraction.Proofs.Yaml.Integer

Integers in YAML texts.

The decimal text of an integer is a word.  It is none of the words for null and the booleans,
it has no leading zero and no mark of another base, so as a plain scalar it denotes the
integer, and the document it makes is the integer in the form that readers choose:

* `inBase?_of_isDigit`, `magnitude?_digits` — digits denote their number;
* `integer?_toString`, `resolve_eq_integer` — so does the text of an integer, and a plain
  scalar that is one;
* `read_toString` — the text is read as the form of the integer.
-/

namespace Extraction.Yaml

open Document (Number)

/-! ## digits -/

/-- A digit is a character of words. -/
theorem isWord_of_isDigit {c : Char} (hc : Decimal.isDigit c = true) : isWord c = true := by
  rw [Decimal.isDigit] at hc
  simp [isWord, hc]

/-- A decimal digit has the same value as a hexadecimal one. -/
theorem value?_of_isDigit {c : Char} (hc : Decimal.isDigit c = true) :
    Text.Hex.value? c = some (Decimal.digitValue c) := by
  simp only [Decimal.isDigit, Bool.and_eq_true, decide_eq_true_eq] at hc
  exact if_pos hc

/-- Digits are gathered to the number they denote. -/
theorem inBase?_of_isDigit {cs : List Char} (hne : cs ≠ [])
    (hcs : ∀ c ∈ cs, Decimal.isDigit c = true) : inBase? 10 cs = some (Decimal.value cs) := by
  have hempty : cs.isEmpty = false := by simpa using hne
  rw [inBase?, hempty, Decimal.value]
  clear hne hempty
  -- The induction is over what is left of the digits, with the number gathered so far.
  suffices ∀ n, cs.foldl _ (some n) = some (cs.foldl (fun n c => 10 * n + Decimal.digitValue c) n)
    from this 0
  induction cs with
  | nil => exact fun n => rfl
  | cons c cs ih =>
      intro n
      have hc : Decimal.isDigit c = true := hcs c List.mem_cons_self
      rw [List.foldl_cons, List.foldl_cons, ← ih fun d hd => hcs d (List.mem_cons_of_mem c hd)]
      simp [value?_of_isDigit hc, Decimal.digitValue_lt_of_isDigit hc]

/-- `Decimal.digits` begin with a digit. -/
theorem digits_ne_cons {d : Char} (hd : Decimal.isDigit d = false) (n : Nat) (cs : List Char) :
    Decimal.digits n ≠ d :: cs := by
  intro h
  have hdigit := Decimal.isDigit_of_mem_digits (n := n) (c := d) (by simp [h])
  rw [hd] at hdigit
  cases hdigit

/-- `unsigned` leaves digits without a sign as they are. -/
theorem unsigned_digits (n : Nat) : unsigned (Decimal.digits n) = Decimal.digits n := by
  rw [unsigned]
  · exact digits_ne_cons rfl n
  · exact digits_ne_cons rfl n

/-- `magnitude?` takes digits for the number that they denote, without a base. -/
theorem magnitude?_digits (n : Nat) : magnitude? (Decimal.digits n) = some n := by
  rw [magnitude?]
  · rw [inBase?_of_isDigit (Decimal.digits_ne_nil n) fun c hc => Decimal.isDigit_of_mem_digits hc,
      Decimal.value_digits]
  · exact fun cs => Decimal.digits_ne_zero_cons n 'x' cs
  · exact fun cs => Decimal.digits_ne_zero_cons n 'o' cs
  · exact fun cs => Decimal.digits_ne_zero_cons n 'b' cs

/-! ## the text of an integer -/

/-- `unsigned` leaves the digits of an integer, of either sign. -/
theorem unsigned_toString (n : Int) : unsigned (toString n).toList = Decimal.digits n.natAbs := by
  rw [Decimal.toList_toString]
  split
  · rfl
  · exact unsigned_digits n.natAbs

/-- The decimal text of an integer has no zeros to spare. -/
theorem isZeroPadded_toString (n : Int) : isZeroPadded (toString n).toList = false := by
  rw [isZeroPadded, unsigned_toString]
  split
  · next h => exact absurd h (Decimal.digits_ne_zero_cons _ _ _)
  · rfl

/-- Within 128 bits `integer?` takes the decimal text of an integer for it. -/
theorem integer?_toString {n : Int} (hge : -0x80000000000000000000000000000000 ≤ n)
    (hlt : n < 0x100000000000000000000000000000000) : integer? (toString n).toList = some n := by
  have hdash : (toString n).toList.head? = some '-' ↔ n < 0 := by
    rw [Decimal.toList_toString]
    split
    · next hneg => exact iff_of_true rfl hneg
    · next hneg =>
      refine iff_of_false (fun h => ?_) hneg
      obtain ⟨cs, hcs⟩ := List.head?_eq_some_iff.1 h
      exact digits_ne_cons rfl _ _ hcs
  simp only [integer?, isZeroPadded_toString, unsigned_toString, magnitude?_digits, hdash]
  rcases Int.lt_or_le n 0 with hneg | hneg
  · have hsmall : n.natAbs ≤ 0x80000000000000000000000000000000 := by omega
    have habs : -(n.natAbs : Int) = n := by omega
    simp only [hneg, hsmall, habs, if_true, Bool.false_eq_true, if_false]
  · have hsmall : n.natAbs < 0x100000000000000000000000000000000 := by omega
    simp only [Int.not_lt.2 hneg, hsmall, Int.natAbs_of_nonneg hneg, if_true,
      Bool.false_eq_true, if_false]

/-- The decimal text of an integer is made of digits and a minus. -/
theorem isDigit_or_eq_of_mem_toString {n : Int} {c : Char} (h : c ∈ (toString n).toList) :
    Decimal.isDigit c = true ∨ c = '-' := by
  rw [Decimal.toList_toString] at h
  split at h
  · rcases List.mem_cons.1 h with rfl | h
    · exact .inr rfl
    · exact .inl (Decimal.isDigit_of_mem_digits h)
  · exact .inl (Decimal.isDigit_of_mem_digits h)

/-- The decimal text of an integer is a `BareWord`, also with its minus. -/
theorem bareWord_toString (n : Int) : BareWord (toString n).toList where
  ne_nil := by
    rw [Decimal.toList_toString]
    split
    · exact List.cons_ne_nil _ _
    · exact Decimal.digits_ne_nil _
  chars c hc := by
    rcases isDigit_or_eq_of_mem_toString hc with h | rfl
    · exact isWord_of_isDigit h
    · rfl
  dash ds h := by
    rw [Decimal.toList_toString] at h
    split at h
    · obtain ⟨e, es, hes⟩ := List.exists_cons_of_ne_nil (Decimal.digits_ne_nil n.natAbs)
      refine ⟨e, es, (List.cons.inj h).2.symm.trans hes, ?_⟩
      rintro rfl
      exact digits_ne_cons rfl _ _ hes
    · exact absurd h (digits_ne_cons rfl _ _)

/-- A plain scalar of digits and dashes denotes an integer if it can. -/
theorem resolve_eq_integer {s : String} {n : Int}
    (hs : ∀ c ∈ s.toList, Decimal.isDigit c = true ∨ c = '-') (hn : integer? s.toList = some n) :
    resolve s = .integer n := by
  have hne : ∀ t : String, (∃ c ∈ t.toList, Decimal.isDigit c = false ∧ c ≠ '-') → s ≠ t := by
    rintro _ ⟨c, hc, hdigit, hdash⟩ rfl
    rcases hs c hc with h | h
    · rw [hdigit] at h
      cases h
    · exact hdash h
  have hempty : s ≠ "" := by
    rintro rfl
    have hnone : integer? "".toList = none := by decide
    rw [hnone] at hn
    cases hn
  have hnull : isNullWord s = false := by
    simp [isNullWord, hne "null" ⟨'n', by decide⟩, hne "Null" ⟨'N', by decide⟩,
      hne "NULL" ⟨'N', by decide⟩, hne "~" ⟨'~', by decide⟩]
  have hboolean : boolean? s = none := by
    simp [boolean?, hne "true" ⟨'t', by decide⟩, hne "True" ⟨'T', by decide⟩,
      hne "TRUE" ⟨'T', by decide⟩, hne "false" ⟨'f', by decide⟩, hne "False" ⟨'F', by decide⟩,
      hne "FALSE" ⟨'F', by decide⟩]
  simp only [resolve, hempty, hnull, hboolean, hn]
  rfl

/-- `read` takes the decimal text of an integer for the form of `Number.ofInt`. -/
theorem read_toString {n : Int} (hge : -0x8000000000000000 ≤ n)
    (hlt : n < 0x10000000000000000) : read (toString n) = .ok (.number (.ofInt n)) := by
  have hvalue : plainValue (toString n) = .ok (.number (.ofInt n)) := by
    have hinteger := integer?_toString (n := n) (by omega) (by omega)
    rw [plainValue, resolve_eq_integer (fun c hc => isDigit_or_eq_of_mem_toString hc) hinteger]
    simp only [integerValue, Number.ofInt?_eq, hge, hlt, and_self, if_true]
  rw [read, readValue_of_bareWord (bareWord_toString n), String.ofList_toList, hvalue]
  rfl

end Extraction.Yaml
