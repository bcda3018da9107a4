import Extraction.Proofs.Transition.Seek
import Extraction.Proofs.Transition.Stages

/-!
# Extraction.Proofs.Transition.Order

Applying transitions in another order.

Nothing is carried over from one expression to the next: whether an expression has faults,
leads to a value, or has its value refused does not depend on the others.  So what kind of
outcome there is depends on which expressions there are, and their order shows only in the
order in which entries and problems are listed, and in which refused value is told:

* `kind?_matchTokens_perm`, `stored_perm` — matching the tokens in another order;
* `entries_of_apply` — with distinct output names every value found has an entry;
* `apply_perm` — applying the expressions in another order.
-/

namespace Extraction.Transition

open Document

/-! ## kinds of outcomes -/

/-- The kinds of failures, without what a failure tells. -/
inductive Failure.Kind where
  | emptyTransitions
  | emptySource
  | malformed
  | problems
  | rejected
  | noMatches
deriving DecidableEq

def Failure.kind : Failure → Failure.Kind
  | emptyTransitions => .emptyTransitions
  | emptySource => .emptySource
  | malformed _ => .malformed
  | problems _ => .problems
  | rejected _ => .rejected
  | noMatches => .noMatches

/-- The kind of failure, unless there is none. -/
def kind? {α : Type} : Except Failure α → Option Failure.Kind
  | .ok _ => none
  | .error f => some f.kind

/-- There is no `kind?` of failure just in a success. -/
theorem kind?_eq_none_iff {α : Type} {r : Except Failure α} : kind? r = none ↔ ∃ a, r = .ok a := by
  cases r <;> simp [kind?]

/-- What is made of an answer does not change its `kind?`. -/
theorem kind?_map {α β : Type} (g : α → β) (r : Except Failure α) : kind? (r.map g) = kind? r := by
  cases r <;> rfl

/-! ## tokens in another order -/

variable {ts ts' : List Token} {root : Value}

/-- Tokens in another order lead to the same values, in that order. -/
theorem stored_perm (h : ts.Perm ts') : (stored root ts).Perm (stored root ts') :=
  h.filterMap _

/-- Tokens in another order have a refused one among them or not, as before. -/
theorem isSome_findSome?_refusal?_perm (h : ts.Perm ts') :
    (ts.findSome? (refusal? root)).isSome = (ts'.findSome? (refusal? root)).isSome := by
  rw [Bool.eq_iff_iff, List.findSome?_isSome_iff, List.findSome?_isSome_iff]
  simp only [h.mem_iff]

/-- The `kind?` of matching: a refusal comes before nothing being found. -/
theorem kind?_matchTokens (ts : List Token) (root : Value) :
    kind? (matchTokens ts root).2 =
      if (ts.findSome? (refusal? root)).isSome then some .rejected
      else if stored root ts = [] then some .noMatches else none := by
  rw [matchTokens_eq]
  cases ts.findSome? (refusal? root) with
  | some r => rfl
  | none => by_cases hstored : stored root ts = [] <;> simp [hstored, kind?, Failure.kind]

/-- The `kind?` of matching does not depend on the order of the tokens. -/
theorem kind?_matchTokens_perm (h : ts.Perm ts') :
    kind? (matchTokens ts root).2 = kind? (matchTokens ts' root).2 := by
  have hempty : stored root ts = [] ↔ stored root ts' = [] := by
    rw [← List.length_eq_zero_iff, ← List.length_eq_zero_iff, (stored_perm h).length_eq]
  rw [kind?_matchTokens, kind?_matchTokens, isSome_findSome?_refusal?_perm h]
  simp only [hempty]

/-- The names that values are stored under are those of the tokens that lead to a value. -/
theorem map_fst_stored_sublist (ts : List Token) (root : Value) :
    ((stored root ts).map Prod.fst).Sublist (ts.map Token.outputName) := by
  induction ts with
  | nil => exact .slnil
  | cons t ts ih =>
      cases hfind : find t.path root with
      | none =>
          have hstored : stored root (t :: ts) = stored root ts := by simp [stored, hfind]
          rw [hstored]
          exact ih.cons _
      | some v =>
          have hstored : stored root (t :: ts) = (t.outputName, v) :: stored root ts := by
            simp [stored, hfind]
          rw [hstored]
          exact ih.cons_cons _

/-- With distinct output names no value that was found takes the place of another. -/
theorem entries_of_matchTokens (hnames : (ts.map Token.outputName).Nodup) {results : Results}
    (h : (matchTokens ts root).2 = .ok results) : results.entries = stored root ts := by
  have hkeys : ((stored root ts).map Prod.fst).Nodup :=
    hnames.sublist (map_fst_stored_sublist ts root)
  rw [matchTokens_eq] at h
  split at h
  · cases h
  · split at h
    · cases h
    · cases h
      exact Entries.ofList_of_nodup hkeys

/-! ## expressions in another order -/

variable {es es' : List String} {source : Value}

/-- Expressions in another order have the same problems, in that order. -/
theorem problems_perm (h : es.Perm es') :
    (es.flatMap Batch.problemsOf).Perm (es'.flatMap Batch.problemsOf) :=
  h.flatMap_right _

/-- What kind of outcome there is, by the stages that come before matching. -/
theorem kind?_apply (es : List String) (source : Value) :
    kind? (apply es source).2 =
      if es = [] then some .emptyTransitions
      else if children source = [] then some .emptySource
      else if es.flatMap Batch.problemsOf = [] then
        kind? (matchTokens (es.map Expression.token) source).2
      else some .problems := by
  rw [apply_eq_applyValues, applyValues_expressions, apply_ite kind?, apply_ite kind?,
    apply_ite kind?, kind?_map]
  rfl

/-- No stage before matching depends on the order either. -/
theorem kind?_apply_perm (h : es.Perm es') :
    kind? (apply es source).2 = kind? (apply es' source).2 := by
  have hnil : es = [] ↔ es' = [] :=
    ⟨fun he => List.perm_nil.1 (he ▸ h.symm), fun he => List.perm_nil.1 (he ▸ h)⟩
  have hproblems : es.flatMap Batch.problemsOf = [] ↔ es'.flatMap Batch.problemsOf = [] := by
    simp only [flatMap_problemsOf_eq_nil_iff, h.mem_iff]
  simp only [kind?_apply, hnil, hproblems, kind?_matchTokens_perm (h.map Expression.token)]

/-- What an expression stores, if it leads to a value. -/
def storedBy (source : Value) (e : String) : Option (String × Value) :=
  (find (Expression.token e).path source).map fun v => ((Expression.token e).outputName, v)

/-- The entries that tokens store are those of their expressions. -/
theorem stored_map_token (es : List String) (source : Value) :
    stored source (es.map Expression.token) = es.filterMap (storedBy source) := by
  rw [stored, List.filterMap_map]
  rfl

/-- Applying succeeds only with what matching answers. -/
theorem exists_matchTokens_of_apply {applied : Applied} (h : (apply es source).2 = .ok applied) :
    ∃ results, (matchTokens (es.map Expression.token) source).2 = .ok results ∧
      applied.results = results := by
  rw [apply_eq_applyValues, applyValues_expressions] at h
  split at h
  · cases h
  · split at h
    · cases h
    · split at h
      · cases hmatch : (matchTokens (es.map Expression.token) source).2 with
        | error f =>
            rw [hmatch] at h
            cases h
        | ok results =>
            rw [hmatch] at h
            cases h
            exact ⟨results, rfl, rfl⟩
      · cases h

/-- With distinct output names the results are what each expression stores. -/
theorem entries_of_apply (hnames : (es.map fun e => (Expression.token e).outputName).Nodup)
    {applied : Applied} (h : (apply es source).2 = .ok applied) :
    applied.results.entries = es.filterMap (storedBy source) := by
  obtain ⟨results, hmatch, rfl⟩ := exists_matchTokens_of_apply h
  have htokens : ((es.map Expression.token).map Token.outputName).Nodup := by
    rw [List.map_map]
    exact hnames
  rw [entries_of_matchTokens htokens hmatch, stored_map_token]

/-- The problems that are told are those of all expressions. -/
theorem problems_of_apply {ps : List Problem} (h : (apply es source).2 = .error (.problems ps)) :
    ps = es.flatMap Batch.problemsOf := by
  rw [apply_eq_applyValues, applyValues_expressions] at h
  split at h
  · cases h
  · split at h
    · cases h
    · split at h
      · exact absurd h (map_matchTokens_ne nofun nofun)
      · cases h
        rfl

/-- **Order**: applying expressions in another order ends in the same kind of outcome.  If
it succeeds and the output names are distinct, the entries are the same, each result listing
them in the order of its own expressions; if expressions have faults, the same problems are
told, as often as before. -/
theorem apply_perm (h : es.Perm es') (source : Value) :
    kind? (apply es source).2 = kind? (apply es' source).2 ∧
    ((es.map fun e => (Expression.token e).outputName).Nodup → ∀ a a',
      (apply es source).2 = .ok a → (apply es' source).2 = .ok a' →
        a.results.entries.Perm a'.results.entries ∧
        a.results.entries = es.filterMap (storedBy source) ∧
        a'.results.entries = es'.filterMap (storedBy source)) ∧
    ∀ ps ps', (apply es source).2 = .error (.problems ps) →
      (apply es' source).2 = .error (.problems ps') → ps.Perm ps' := by
  refine ⟨kind?_apply_perm h, fun hnames a a' ha ha' => ?_, fun ps ps' hps hps' => ?_⟩
  · have hentries := entries_of_apply hnames ha
    have hentries' := entries_of_apply ((h.map _).nodup_iff.1 hnames) ha'
    rw [hentries, hentries']
    exact ⟨h.filterMap _, rfl, rfl⟩
  · rw [problems_of_apply hps, problems_of_apply hps']
    exact problems_perm h

/-- A document for expressions that lead to a number, to a text inside an object, and nowhere. -/
def mixed : Value := .object [("a", .number (.int 6)), ("b", .object [("c", .string "x")])]

/-- Three expressions of which one leads nowhere, each list with the entries in its own order;
two of which either is refused; and faulty ones, of which one stands in the list twice. -/
theorem apply_perm_mixed :
    (∃ a a', (apply ["a|n", "x", "b>c#string"] mixed).2 = .ok a ∧
      (apply ["b>c#string", "x", "a|n"] mixed).2 = .ok a' ∧
      a.results.entries.Perm a'.results.entries ∧
      a.results.entries = [("n", .number (.int 6)), ("c", .string "x")] ∧
      a'.results.entries = [("c", .string "x"), ("n", .number (.int 6))]) ∧
    kind? (apply ["a#null", "b#null"] mixed).2 = kind? (apply ["b#null", "a#null"] mixed).2 ∧
    ∀ ps ps', (apply ["a#", "|b", "a#"] mixed).2 = .error (.problems ps) →
      (apply ["|b", "a#", "a#"] mixed).2 = .error (.problems ps') → ps.Perm ps' := by
  have hreverse : ["a|n", "x", "b>c#string"].Perm ["b>c#string", "x", "a|n"] := by decide
  have hnames :
      (["a|n", "x", "b>c#string"].map fun e => (Expression.token e).outputName).Nodup := by decide
  have hstored : ["a|n", "x", "b>c#string"].filterMap (storedBy mixed) =
      [("n", .number (.int 6)), ("c", .string "x")] := by
    simp only [List.filterMap_cons, List.filterMap_nil, storedBy, find_eq_seek]
    rfl
  have hstored' : ["b>c#string", "x", "a|n"].filterMap (storedBy mixed) =
      [("c", .string "x"), ("n", .number (.int 6))] := by
    simp only [List.filterMap_cons, List.filterMap_nil, storedBy, find_eq_seek]
    rfl
  have hrefused : (["a|n", "x", "b>c#string"].map Expression.token).findSome? (refusal? mixed) =
      none := by
    simp only [List.map_cons, List.map_nil, List.findSome?_cons, refusal?, find_eq_seek]
    rfl
  have hkind : kind? (apply ["a|n", "x", "b>c#string"] mixed).2 = none := by
    have hchildren : children mixed ≠ [] := List.cons_ne_nil _ _
    rw [kind?_apply, if_neg (List.cons_ne_nil _ _), if_neg hchildren, if_pos (by decide),
      kind?_matchTokens, hrefused, stored_map_token, hstored]
    rfl
  obtain ⟨hsame, hentries, -⟩ := apply_perm hreverse mixed
  obtain ⟨a, ha⟩ := kind?_eq_none_iff.1 hkind
  obtain ⟨a', ha'⟩ := kind?_eq_none_iff.1 (hsame ▸ hkind)
  obtain ⟨hperm, hlist, hlist'⟩ := hentries hnames a a' ha ha'
  refine ⟨⟨a, a', ha, ha', hperm, hlist.trans hstored, hlist'.trans hstored'⟩, ?_, ?_⟩
  · exact (apply_perm (List.Perm.swap "b#null" "a#null" []) mixed).1
  · exact (apply_perm (List.Perm.swap "|b" "a#" ["a#"]) mixed).2.2

end Extraction.Transition
