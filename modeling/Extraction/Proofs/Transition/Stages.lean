import Extraction.Proofs.Transition.Matching
import Extraction.Proofs.Transition.Reading
import Extraction.Transition.Apply

/-!
# Extraction.Proofs.Transition.Stages

Which of several things that are wrong is told.

Applying transitions has five ways to fail, which are looked for one after the other: an
entry that is no expression, no transitions at all, a document without children, faults in
the expressions, and what matching runs into.  An input can call for several of them; the
first one in this order decides:

* `expressions_or_malformed` — a list of entries is a list of expressions, or has a first
  entry that is none;
* `applyValues_of_malformed`, `applyValues_expressions` — the outcome in either case;
* `apply_eq_applyValues` — expressions are applied like entries that are strings;
* `applyValues_stages` — the condition of each failure.
-/

namespace Extraction.Transition

open Document

/-! ## entries that are no expressions -/

/-- Why an entry is no expression, unless it is one. -/
def malformed? : Value → Option Malformed
  | .string _ => none
  | .number n => some (.scalar (Value.number n).display)
  | .boolean b => some (.scalar (Value.boolean b).display)
  | .null => some .null
  | .object _ => some .other
  | .array _ => some .other

/-- Only a string is not `malformed?`. -/
theorem malformed?_eq_none_iff {v : Value} : malformed? v = none ↔ ∃ e, v = .string e := by
  cases v <;> simp [malformed?]

/-- `readValue` refuses an entry as `malformed?` says, whatever the batch. -/
theorem readValue_of_malformed {v : Value} {m : Malformed} (h : malformed? v = some m)
    (b : Batch) : b.readValue v = .error m := by
  cases v with
  | string e => cases h
  | _ => cases h; rfl

/-- The first entry that is no expression splits a list of entries. -/
theorem expressions_or_malformed (vs : List Value) :
    (∃ es : List String, vs = es.map .string) ∨
      ∃ (es : List String) (v : Value) (rest : List Value) (m : Malformed),
        vs = es.map .string ++ v :: rest ∧ malformed? v = some m := by
  induction vs with
  | nil => exact .inl ⟨[], rfl⟩
  | cons v vs ih =>
      cases hv : malformed? v with
      | some m => exact .inr ⟨[], v, vs, m, rfl, hv⟩
      | none =>
          obtain ⟨e, rfl⟩ := malformed?_eq_none_iff.1 hv
          rcases ih with ⟨es, rfl⟩ | ⟨es, u, rest, m, rfl, hu⟩
          · exact .inl ⟨e :: es, rfl⟩
          · exact .inr ⟨e :: es, u, rest, m, rfl, hu⟩

/-! ## reading -/

/-- Reading several expressions gathers what each of them says, and its problems. -/
theorem readAll_eq (b : Batch) (es : List String) :
    readAll b es = (es.map Expression.token, ⟨b.problems ++ es.flatMap Batch.problemsOf⟩) := by
  induction es generalizing b with
  | nil => simp [readAll]
  | cons e es ih => simp [readAll, Batch.read_eq, ih]

/-- Strings are all read, and each is told of when it is. -/
theorem readEntries_expressions (b : Batch) (es : List String) :
    readEntries b (es.map .string) = ((readAll b es).1.map .parsed, .ok (readAll b es)) := by
  induction es generalizing b with
  | nil => rfl
  | cons e es ih => simp [readEntries, Batch.readValue, readAll, ih, Except.map]

/-- The first entry that is `malformed?` ends the reading, whatever stands before and behind it.
-/
theorem readEntries_of_malformed {v : Value} {m : Malformed} (hv : malformed? v = some m)
    (b : Batch) (es : List String) (rest : List Value) :
    (readEntries b (es.map .string ++ v :: rest)).2 = .error m := by
  induction es generalizing b with
  | nil => simp [readEntries, readValue_of_malformed hv]
  | cons e es ih => simp [readEntries, Batch.readValue, ih, Except.map]

/-! ## the stages -/

/-- A document is empty just if it has no children. -/
theorem isEmpty_iff_children {v : Value} : v.isEmpty = true ↔ children v = [] := by
  have hnamed : ∀ es : List (String × Value), es.length = 0 ↔ named es = [] := fun es => by
    cases es <;> simp [named]
  have hindexed : ∀ xs : List Value, xs.length = 0 ↔ indexed 0 xs = [] := fun xs => by
    cases xs <;> simp [indexed]
  cases v <;> simp [Value.isEmpty, Value.length, children, ← hnamed, ← hindexed]

/-- Matching fails for no other reasons than a refused value and nothing found. -/
theorem map_matchTokens_ne {α : Type} {ts : List Token} {root : Value} {g : Results → α}
    {f : Failure} (hr : ∀ r, f ≠ .rejected r) (hn : f ≠ .noMatches) :
    (matchTokens ts root).2.map g ≠ .error f := by
  rw [matchTokens_eq]
  intro h
  split at h
  · cases h
    exact hr _ rfl
  · split at h
    · cases h
      exact hn rfl
    · cases h

/-- Matching after the checks: the result comes with the tokens. -/
theorem run_eq (ts : List Token) (b : Batch) (source : Value) :
    (run ts b source).2 = match admit? ts b source with
      | .error f => .error f
      | .ok () => (matchTokens ts source).2.map fun results => ⟨ts, results⟩ := by
  rw [run]
  cases admit? ts b source with
  | error f => rfl
  | ok _ => cases h : (matchTokens ts source).2 <;> simp [h, Except.map]

/-- A malformed entry is told before all else. -/
theorem applyValues_of_malformed {v : Value} {m : Malformed} (hv : malformed? v = some m)
    (es : List String) (rest : List Value) (source : Value) :
    (applyValues (es.map .string ++ v :: rest) source).2 = .error (.malformed m) := by
  simp [applyValues, readEntries_of_malformed hv]

/-- Expressions are applied like entries that are strings, and tell the log the same. -/
theorem apply_eq_applyValues (es : List String) (source : Value) :
    apply es source = applyValues (es.map .string) source := by
  simp [apply, applyValues, readEntries_expressions]

/-- The stages that follow the reading of expressions. -/
theorem applyValues_expressions (es : List String) (source : Value) :
    (applyValues (es.map .string) source).2 =
      if es = [] then .error .emptyTransitions
      else if children source = [] then .error .emptySource
      else if es.flatMap Batch.problemsOf = [] then
        (matchTokens (es.map Expression.token) source).2.map fun results =>
          ⟨es.map Expression.token, results⟩
      else .error (.problems (es.flatMap Batch.problemsOf)) := by
  have hrun : (applyValues (es.map .string) source).2 =
      (run (es.map Expression.token) ⟨es.flatMap Batch.problemsOf⟩ source).2 := by
    simp [applyValues, readEntries_expressions, readAll_eq, Batch.empty]
  rw [hrun, run_eq, admit?]
  simp only [isEmpty_iff_children, List.isEmpty_iff, List.map_eq_nil_iff, Batch.finish]
  by_cases hes : es = []
  · simp only [if_pos hes]
  · by_cases hsource : children source = []
    · simp only [if_neg hes, if_pos hsource]
    · by_cases hproblems : es.flatMap Batch.problemsOf = []
      · simp only [if_neg hes, if_neg hsource, if_pos hproblems]
      · simp only [if_neg hes, if_neg hsource, if_neg hproblems]

/-- Expressions without faults are read alone as they are read together. -/
theorem forall₂_readExpression {es : List String} (h : es.flatMap Batch.problemsOf = []) :
    List.Forall₂ (fun e t => readExpression e = .ok t) es (es.map Expression.token) := by
  rw [List.forall₂_map_right_iff, List.forall₂_same]
  intro e he
  rw [readExpression_eq, if_pos (List.flatMap_eq_nil_iff.1 h e he)]

/-- There are no problems just if no expression has faults. -/
theorem flatMap_problemsOf_eq_nil_iff {es : List String} :
    es.flatMap Batch.problemsOf = [] ↔ ∀ e ∈ es, Expression.faults e = [] := by
  simp only [List.flatMap_eq_nil_iff, problemsOf_eq_nil_iff]

/-- Applying fails at an entry just if that is the first one that is no expression. -/
theorem applyValues_eq_malformed_iff {vs : List Value} {source : Value} {m : Malformed} :
    (applyValues vs source).2 = .error (.malformed m) ↔ vs.findSome? malformed? = some m := by
  have hskip : ∀ es : List String, (es.map Value.string).findSome? malformed? = none := by
    simp [List.findSome?_eq_none_iff, malformed?]
  rcases expressions_or_malformed vs with ⟨es, rfl⟩ | ⟨es, v, rest, m', rfl, hv⟩
  · rw [hskip, applyValues_expressions]
    refine ⟨fun h => ?_, fun h => nomatch h⟩
    split at h
    · cases h
    · split at h
      · cases h
      · split at h
        · exact absurd h (map_matchTokens_ne nofun nofun)
        · cases h
  · rw [applyValues_of_malformed hv, List.findSome?_append, hskip, Option.none_or,
      List.findSome?_cons, hv]
    simp

/-- **Stages**: the first entry that is no expression decides, whatever stands before and
after it and whatever the document is.  Without such an entry, applying fails for want of
transitions just if there are none, else for want of a source just if the document has no
children, else with the problems of all expressions in their order just if an expression has
a fault; else its outcome is that of matching what the expressions say each alone.
Expressions are applied like entries that are strings. -/
theorem applyValues_stages (source : Value) :
    (∀ vs m, (applyValues vs source).2 = .error (.malformed m) ↔
      ∃ before v after, vs = before ++ v :: after ∧ (∀ u ∈ before, ∃ e, u = .string e) ∧
        malformed? v = some m) ∧
    ∀ es : List String,
      ((applyValues (es.map .string) source).2 = .error .emptyTransitions ↔ es = []) ∧
      ((applyValues (es.map .string) source).2 = .error .emptySource ↔
        es ≠ [] ∧ children source = []) ∧
      (∀ ps, (applyValues (es.map .string) source).2 = .error (.problems ps) ↔
        es ≠ [] ∧ children source ≠ [] ∧ (∃ e ∈ es, Expression.faults e ≠ []) ∧
          ps = es.flatMap Batch.problemsOf) ∧
      (es ≠ [] → children source ≠ [] → (∀ e ∈ es, Expression.faults e = []) →
        ∃ ts, List.Forall₂ (fun e t => readExpression e = .ok t) es ts ∧
          (applyValues (es.map .string) source).2 =
            (matchTokens ts source).2.map fun results => ⟨ts, results⟩) ∧
      apply es source = applyValues (es.map .string) source := by
  constructor
  · intro vs m
    rw [applyValues_eq_malformed_iff, List.findSome?_eq_some_iff]
    simp only [malformed?_eq_none_iff, and_comm (a := malformed? _ = some m)]
  · intro es
    have hfaults : (∃ e ∈ es, Expression.faults e ≠ []) ↔ es.flatMap Batch.problemsOf ≠ [] := by
      rw [ne_eq, flatMap_problemsOf_eq_nil_iff]
      push Not
      rfl
    have hsame := apply_eq_applyValues es source
    rw [applyValues_expressions, hfaults, ← flatMap_problemsOf_eq_nil_iff]
    by_cases hes : es = []
    · simp [hes, apply_eq_applyValues]
    · by_cases hsource : children source = []
      · simp [hes, hsource, hsame]
      · by_cases hproblems : es.flatMap Batch.problemsOf = []
        · rw [if_neg hes, if_neg hsource, if_pos hproblems]
          refine ⟨?_, ?_, fun ps => ?_, fun _ _ _ => ?_, hsame⟩
          · simp [hes, map_matchTokens_ne]
          · simp [hsource, map_matchTokens_ne]
          · simp [hproblems, map_matchTokens_ne]
          · exact ⟨_, forall₂_readExpression hproblems, rfl⟩
        · simp [hes, hsource, hproblems, hsame, eq_comm]

/-- Entries of which the first faulty one is passed over for the first that is no expression,
a faulty expression for a document without children, and two faultless expressions. -/
theorem applyValues_stages_mixed :
    (applyValues [.string "a|b|c", .number (.int 6), .null] .null).2 =
      .error (.malformed (.scalar "6")) ∧
    (applyValues (["a|b|c"].map .string) (.string "a")).2 = .error .emptySource ∧
    (applyValues (["a#b", "a", "c|"].map .string) (.array [.null])).2 =
      .error (.problems [⟨"a#b", .unknownAssertion "b"⟩, ⟨"c|", .emptyAlias⟩]) ∧
    ∃ ts, List.Forall₂ (fun e t => readExpression e = .ok t) ["1#int|a", "0#null"] ts ∧
      (applyValues (["1#int|a", "0#null"].map .string) (.array [.null])).2 =
        (matchTokens ts (.array [.null])).2.map fun results => ⟨ts, results⟩ := by
  have hsix : malformed? (.number (.int 6)) = some (.scalar "6") := by
    rw [malformed?, Value.display, Number.display, Decimal.intText, if_neg (by decide),
      Decimal.text, Decimal.digits_of_lt (by decide)]
    rfl
  have hmalformed := (applyValues_stages .null).1
    [.string "a|b|c", .number (.int 6), .null] (.scalar "6")
  have hsource := ((applyValues_stages (.string "a")).2 ["a|b|c"]).2.1
  have hproblems := ((applyValues_stages (.array [.null])).2 ["a#b", "a", "c|"]).2.2.1
  have hmatch := ((applyValues_stages (.array [.null])).2 ["1#int|a", "0#null"]).2.2.2.1
  refine ⟨hmalformed.2 ⟨[.string "a|b|c"], .number (.int 6), [.null], rfl, ?_, hsix⟩,
    hsource.2 ⟨List.cons_ne_nil _ _, rfl⟩, (hproblems _).2 ⟨List.cons_ne_nil _ _, ?_, ?_, ?_⟩,
    hmatch (List.cons_ne_nil _ _) ?_ (by decide)⟩
  · simp
  · exact List.cons_ne_nil _ _
  · exact ⟨"a#b", by decide, by decide⟩
  · decide
  · exact List.cons_ne_nil _ _

end Extraction.Transition
