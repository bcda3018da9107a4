import Extraction.Proofs.Text.Bytes
import Extraction.Proofs.Transition.Written
import Extraction.Transition.Batch
import Mathlib.Data.List.Forall2

/-!
# Extraction.Proofs.Transition.Reading

Reading an expression alone, and reading what was written.

The written form has no fault, so reading it alone succeeds, with the segments and the alias
it was written from.  The checks are those that its names denote, each once.  A check can
have several names, which need not be neighbours in the sorted list: `resolve` keeps it where
the first of them stands, so that the checks stand in the order of their least names:

* `readExpression_eq` — the token of an expression without problems;
* `mem_resolve`, `nodup_resolve` — the checks that names denote, each once;
* `exists_sublist_resolve` — the names at whose places they stand;
* `readExpression_write` — reading undoes writing.
-/

namespace Extraction.Transition

/-- An expression that is read alone. -/
theorem readExpression_eq (e : String) :
    readExpression e =
      if Batch.problemsOf e = [] then .ok (Expression.token e)
      else .error (.problems (Batch.problemsOf e)) := by
  by_cases h : Batch.problemsOf e = [] <;>
    simp [readExpression, Batch.read_eq, Batch.finish, Batch.empty, h, Except.map]

/-- An expression has no problems just if it has no faults. -/
theorem problemsOf_eq_nil_iff {e : String} :
    Batch.problemsOf e = [] ↔ Expression.faults e = [] := by
  rw [Batch.problemsOf, List.map_eq_nil_iff]

/-- Reading an expression alone succeeds just if it has no fault. -/
theorem readExpression_eq_ok_iff {e : String} {t : Token} :
    readExpression e = .ok t ↔ Expression.faults e = [] ∧ t = Expression.token e := by
  rw [readExpression_eq, ← problemsOf_eq_nil_iff]
  by_cases h : Batch.problemsOf e = [] <;> simp [h, eq_comm]

namespace Expression

/-! ## the checks of names -/

/-- `resolve` answers the checks that some name denotes, without those seen before. -/
theorem mem_resolve {a : Assertion} {seen : List Assertion} {ns : List String} :
    a ∈ resolve seen ns ↔ a ∉ seen ∧ ∃ n ∈ ns, Assertion.lookup n = some a := by
  induction ns generalizing seen with
  | nil => simp [resolve]
  | cons n ns ih =>
      rw [resolve]
      cases hn : Assertion.lookup n with
      | none => simp [ih, hn]
      | some b =>
          by_cases hab : a = b
          · subst hab
            by_cases hseen : a ∈ seen
            · simp [hseen, ih]
            · simp [hseen, hn]
          · have hba : ¬ b = a := Ne.symm hab
            by_cases hseen : b ∈ seen <;> simp [hseen, ih, hn, hab, hba]

/-- `resolve` answers each check once. -/
theorem nodup_resolve (seen : List Assertion) (ns : List String) : (resolve seen ns).Nodup := by
  induction ns generalizing seen with
  | nil => exact List.nodup_nil
  | cons n ns ih =>
      rw [resolve]
      cases Assertion.lookup n with
      | none => exact ih seen
      | some a =>
          by_cases hseen : a ∈ seen
          · simpa only [if_pos hseen] using ih seen
          · have hfirst : a ∉ resolve (a :: seen) ns :=
              fun h => (mem_resolve.1 h).1 List.mem_cons_self
            simpa only [if_neg hseen] using List.nodup_cons.2 ⟨hfirst, ih (a :: seen)⟩

/-- `n` is the least of the names that denote the check; names compare by their bytes. -/
structure IsLeastName (names : List String) (a : Assertion) (n : String) : Prop where
  mem : n ∈ names
  lookup : Assertion.lookup n = some a
  le : ∀ m ∈ names, Assertion.lookup m = some a → Text.bytes n ≤ Text.bytes m

/-- A name of another check does not change which name is the least. -/
theorem IsLeastName.cons {ns : List String} {a : Assertion} {m n : String}
    (h : IsLeastName ns a m) (hn : Assertion.lookup n ≠ some a) : IsLeastName (n :: ns) a m where
  mem := List.mem_cons_of_mem n h.mem
  lookup := h.lookup
  le k hk hka := by
    rcases List.mem_cons.1 hk with rfl | hk
    · exact absurd hka hn
    · exact h.le k hk hka

/-- The first of increasing names is the least name of the check that it denotes. -/
theorem isLeastName_cons_self {n : String} {ns : List String} {a : Assertion}
    (hn : Assertion.lookup n = some a) (hns : ∀ m ∈ ns, n < m) : IsLeastName (n :: ns) a n where
  mem := List.mem_cons_self
  lookup := hn
  le m hm _ := by
    rcases List.mem_cons.1 hm with rfl | hm
    · exact List.le_refl _
    · exact List.le_of_lt (Text.bytes_lt_bytes_iff.2 (hns m hm))

/-- The checks of increasing names stand at the places of some of the names, of the least
name of each check. -/
theorem exists_sublist_resolve (seen : List Assertion) {ns : List String}
    (hns : ns.Pairwise (· < ·)) :
    ∃ kept, kept.Sublist ns ∧
      List.Forall₂ (fun a n => a ∉ seen ∧ IsLeastName ns a n) (resolve seen ns) kept := by
  induction ns generalizing seen with
  | nil => exact ⟨[], List.Sublist.refl [], List.Forall₂.nil⟩
  | cons n ns ih =>
      obtain ⟨hfirst, hrest⟩ := List.pairwise_cons.1 hns
      rw [resolve]
      cases hn : Assertion.lookup n with
      | none =>
          obtain ⟨kept, hsub, hkept⟩ := ih seen hrest
          refine ⟨kept, hsub.cons n, hkept.imp fun a m h => ⟨h.1, h.2.cons ?_⟩⟩
          simp [hn]
      | some b =>
          by_cases hseen : b ∈ seen
          -- an earlier name denotes the same check, and this one leaves no trace
          · obtain ⟨kept, hsub, hkept⟩ := ih seen hrest
            simp only [if_pos hseen]
            refine ⟨kept, hsub.cons n, hkept.imp fun a m h => ⟨h.1, h.2.cons ?_⟩⟩
            rintro hb
            obtain rfl := Option.some.inj (hn.symm.trans hb)
            exact h.1 hseen
          -- the first name of its check; later ones for it are passed over as seen
          · obtain ⟨kept, hsub, hkept⟩ := ih (b :: seen) hrest
            simp only [if_neg hseen]
            refine ⟨n :: kept, hsub.cons_cons n,
              .cons ⟨hseen, isLeastName_cons_self hn hfirst⟩ (hkept.imp fun a m h => ?_)⟩
            obtain ⟨hab, hseen'⟩ := not_or.1 (mt List.mem_cons.2 h.1)
            refine ⟨hseen', h.2.cons fun hb => hab ?_⟩
            exact (Option.some.inj (hn.symm.trans hb)).symm

/-- `sortNames` keeps the least name of each check. -/
theorem isLeastName_sortNames_iff {names : List String} {a : Assertion} {n : String} :
    IsLeastName (sortNames names) a n ↔ IsLeastName names a n := by
  constructor <;> rintro ⟨hmem, hlookup, hle⟩
  · exact ⟨mem_sortNames.1 hmem, hlookup, fun m hm => hle m (mem_sortNames.2 hm)⟩
  · exact ⟨mem_sortNames.2 hmem, hlookup, fun m hm => hle m (mem_sortNames.1 hm)⟩

/-! ## reading what was written -/

variable {segments names : List String} {aliasName : Option String}

/-- **Reading undoes writing**: the written form is read with the segments and the alias that
it was written from.  Its checks are those that its names denote, each once, in the order of
the least names that denote them. -/
theorem readExpression_write (h : Writable segments names aliasName) :
    ∃ t, readExpression (write segments names aliasName) = .ok t ∧
      t.path = segments ∧ t.aliasName = aliasName ∧
      (∀ a, a ∈ t.assertions ↔ ∃ n ∈ names, Assertion.lookup n = some a) ∧
      t.assertions.Nodup ∧
      ∃ leastNames, List.Forall₂ (IsLeastName names) t.assertions leastNames ∧
        leastNames.Pairwise fun m n => Text.bytes m < Text.bytes n := by
  obtain ⟨kept, hsub, hkept⟩ := exists_sublist_resolve [] (pairwise_sortNames names)
  refine ⟨token (write segments names aliasName),
    readExpression_eq_ok_iff.2 ⟨faults_write h, rfl⟩, ?_⟩
  rw [token_write h]
  refine ⟨rfl, rfl, fun a => ?_, nodup_resolve _ _, kept, ?_, ?_⟩
  · simp only [mem_resolve, mem_sortNames, List.not_mem_nil, not_false_eq_true, true_and]
  · exact hkept.imp fun a n hn => isLeastName_sortNames_iff.1 hn.2
  · exact ((pairwise_sortNames names).sublist hsub).imp Text.bytes_lt_bytes_iff.2

/-- Two names of one check with the name of another one between them. -/
theorem readExpression_write_synonyms :
    Writable ["a", "0"] ["isArray", "int", "array"] (some "b") ∧
    ∃ t, readExpression (write ["a", "0"] ["isArray", "int", "array"] (some "b")) = .ok t ∧
      t.path = ["a", "0"] ∧ t.aliasName = some "b" ∧
      (∀ a, a ∈ t.assertions ↔
        ∃ n ∈ ["isArray", "int", "array"], Assertion.lookup n = some a) ∧
      t.assertions.Nodup ∧
      ∃ leastNames, List.Forall₂ (IsLeastName ["isArray", "int", "array"]) t.assertions leastNames ∧
        leastNames.Pairwise fun m n => Text.bytes m < Text.bytes n := by
  have hw : Writable ["a", "0"] ["isArray", "int", "array"] (some "b") :=
    ⟨by decide, by decide, by decide, by decide⟩
  exact ⟨hw, readExpression_write hw⟩

example : (token "a>0#isArray#int#array|b").assertions = [.isArray, .integer] := by decide

end Expression

end Extraction.Transition
