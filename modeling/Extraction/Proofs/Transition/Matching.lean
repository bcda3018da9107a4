import Extraction.Proofs.Document.Entries
import Extraction.Transition.Match

/-!
# Extraction.Proofs.Transition.Matching

What matching a list of tokens against a document comes to.

A token is *refused* if its path leads to a value that one of its checks does not pass.
Matching is decided by the first refused token, else by the values that the tokens lead
to; tokens that lead nowhere count for nothing:

* `refusal?_eq_some_iff` — which check a refusal names;
* `collect_eq` — the first refused token, or what the tokens store;
* `matchTokens_eq` — the outcome of matching as a case distinction;
* `matchTokens_iff` — the same by conditions on the tokens.
-/

namespace Extraction.Transition

open Document

/-! ## refused tokens -/

/-- The path of the token leads to the value of `r`, and the check of `r` is the first one
of the token that the value does not pass. -/
structure Refused (root : Value) (t : Token) (r : Rejection) : Prop where
  value : find t.path root = some r.value
  searchKey : r.searchKey = t.searchKey
  assertion : ∃ passed rest, t.assertions = passed ++ r.assertion :: rest ∧
    (∀ a ∈ passed, a.check r.value = true) ∧ r.assertion.check r.value = false

/-- The rejection by the checks of a token, if there is one. -/
def rejection? (v : Value) (t : Token) : Option Rejection :=
  (t.assertions.find? fun a => !a.check v).map fun a => ⟨a, t.searchKey, v⟩

/-- The rejection of the value that a token leads to, if it leads to one. -/
def refusal? (root : Value) (t : Token) : Option Rejection :=
  (find t.path root).bind fun v => rejection? v t

/-- `validate` answers the `rejection?` of a value, if there is one. -/
theorem validate_eq (v : Value) (t : Token) :
    validate v t = match rejection? v t with
      | some r => .error r
      | none => .ok () := by
  rw [validate, rejection?]
  cases t.assertions.find? fun a => !a.check v <;> rfl

/-- `refusal?` answers the rejection of a token that is `Refused`. -/
theorem refusal?_eq_some_iff {root : Value} {t : Token} {r : Rejection} :
    refusal? root t = some r ↔ Refused root t r := by
  obtain ⟨b, key, x⟩ := r
  simp only [refusal?, rejection?, Option.bind_eq_some_iff, Option.map_eq_some_iff,
    List.find?_eq_some_iff_append, Rejection.mk.injEq]
  constructor
  · rintro ⟨v, hv, a, ⟨ha, passed, rest, hsplit, hpassed⟩, rfl, rfl, rfl⟩
    exact ⟨hv, rfl, passed, rest, hsplit, by simpa using hpassed, by simpa using ha⟩
  · rintro ⟨hv, hkey, passed, rest, hsplit, hpassed, ha⟩
    refine ⟨x, hv, b, ⟨by simpa using ha, passed, rest, hsplit, ?_⟩, rfl, hkey.symm, rfl⟩
    simpa using hpassed

/-- Without `refusal?` a token is not `Refused` at all. -/
theorem refusal?_eq_none_iff {root : Value} {t : Token} :
    refusal? root t = none ↔ ∀ r, ¬ Refused root t r := by
  simp only [← refusal?_eq_some_iff, Option.eq_none_iff_forall_ne_some, ne_eq]

/-! ## collecting -/

/-- What the tokens store that lead to a value: their output names with the values. -/
def stored (root : Value) (ts : List Token) : List (String × Value) :=
  ts.filterMap fun t => (find t.path root).map fun v => (t.outputName, v)

/-- Nothing is `stored` just if no path leads to a value. -/
theorem stored_eq_nil_iff {root : Value} {ts : List Token} :
    stored root ts = [] ↔ ∀ t ∈ ts, find t.path root = none := by
  simp [stored, List.filterMap_eq_nil_iff]

/-- Nothing is refused if nothing is stored. -/
theorem findSome?_refusal?_eq_none {root : Value} {ts : List Token} (h : stored root ts = []) :
    ts.findSome? (refusal? root) = none := by
  rw [List.findSome?_eq_none_iff]
  intro t ht
  rw [refusal?, stored_eq_nil_iff.1 h t ht, Option.bind_none]

/-- One token: it adds nothing, ends the collecting, or stores its value. -/
theorem collect_cons (root : Value) (t : Token) (ts : List Token) :
    (collect root (t :: ts)).2 =
      match find t.path root with
      | none => (collect root ts).2
      | some v =>
        match rejection? v t with
        | some r => .error r
        | none => (collect root ts).2.map fun values => (t.outputName, v) :: values := by
  simp only [collect, find, validate_eq]
  cases (trace t.path root).2 with
  | none => rfl
  | some visit =>
      simp only [Option.map_some]
      cases rejection? visit.value t <;> rfl

/-- `collect` answers the first refusal, else what is `stored`, by induction over the tokens. -/
theorem collect_eq (root : Value) (ts : List Token) :
    (collect root ts).2 = match ts.findSome? (refusal? root) with
      | some r => .error r
      | none => .ok (stored root ts) := by
  induction ts with
  | nil => rfl
  | cons t ts ih =>
      rw [collect_cons, ih, List.findSome?_cons]
      cases hv : find t.path root with
      | none =>
          have hrefusal : refusal? root t = none := by simp [refusal?, hv]
          have hstored : stored root (t :: ts) = stored root ts := by simp [stored, hv]
          rw [hrefusal, hstored]
      | some v =>
          have hrefusal : refusal? root t = rejection? v t := by simp [refusal?, hv]
          have hstored : stored root (t :: ts) = (t.outputName, v) :: stored root ts := by
            simp [stored, hv]
          rw [hrefusal, hstored]
          cases hr : rejection? v t with
          | some r => simp only [hr]
          | none =>
              simp only [hr]
              cases ts.findSome? (refusal? root) <;> rfl

/-! ## the outcomes of matching -/

/-- `matchTokens` refuses by the first refusal, finds nothing where nothing is `stored`, and else
answers what is. -/
theorem matchTokens_eq (root : Value) (ts : List Token) :
    (matchTokens ts root).2 = match ts.findSome? (refusal? root) with
      | some r => .error (.rejected r)
      | none =>
        if stored root ts = [] then .error .noMatches
        else .ok (Results.ofList (stored root ts)) := by
  have hcollect := collect_eq root ts
  simp only [matchTokens, hcollect]
  cases ts.findSome? (refusal? root) with
  | some r => rfl
  | none =>
      cases hstored : stored root ts with
      | nil => rfl
      | cons p ps => rfl

/-- `Results.get` looks among the entries. -/
theorem get_eq_ok_iff {results : Results} {k : String} {v : Value} :
    results.get k = .ok v ↔ Entries.get? k results.entries = some v := by
  rw [Results.get]
  cases Entries.get? k results.entries <;> simp

/-- A result is determined by its keys in their order and by what it has under them. -/
theorem eq_ofList_iff {results : Results} {ps : List (String × Value)} :
    results = Results.ofList ps ↔ results.keys = (ps.map Prod.fst).eraseDups ∧
      ∀ k v, results.get k = .ok v ↔ Entries.IsLast ps k v := by
  simp only [get_eq_ok_iff, ← Entries.get?_ofList_eq_some_iff, ← Entries.keys_ofList]
  constructor
  · rintro rfl
    exact ⟨rfl, fun k v => Iff.rfl⟩
  · rintro ⟨hkeys, hget⟩
    have hentries : results.entries = Entries.ofList ps :=
      Entries.eq_of_get?_eq hkeys results.nodup fun k => Option.ext fun v => hget k v
    cases results
    cases hentries
    rfl

/-- **Matching**: the first refused token decides.  If none is refused, matching fails just
if no token leads to a value; else the result has the distinct output names in the order of
the first tokens that lead to values, each with the value of the last such token, and no
other key. -/
theorem matchTokens_iff (ts : List Token) (root : Value) :
    (∀ r, (matchTokens ts root).2 = .error (.rejected r) ↔
      ∃ before t after, ts = before ++ t :: after ∧
        (∀ u ∈ before, ∀ r', ¬ Refused root u r') ∧ Refused root t r) ∧
    ((matchTokens ts root).2 = .error .noMatches ↔ ∀ t ∈ ts, find t.path root = none) ∧
    (∀ results : Results, (matchTokens ts root).2 = .ok results ↔
      (∀ t ∈ ts, ∀ r, ¬ Refused root t r) ∧ (∃ t ∈ ts, find t.path root ≠ none) ∧
      results.keys = ((stored root ts).map Prod.fst).eraseDups ∧
      ∀ k v, results.get k = .ok v ↔ Entries.IsLast (stored root ts) k v) := by
  have hfirst : ∀ r, ts.findSome? (refusal? root) = some r ↔
      ∃ before t after, ts = before ++ t :: after ∧
        (∀ u ∈ before, ∀ r', ¬ Refused root u r') ∧ Refused root t r := fun r => by
    rw [List.findSome?_eq_some_iff]
    simp only [refusal?_eq_some_iff, refusal?_eq_none_iff, and_comm (a := Refused root _ r)]
  have hnone : ts.findSome? (refusal? root) = none ↔ ∀ t ∈ ts, ∀ r, ¬ Refused root t r := by
    simp only [List.findSome?_eq_none_iff, refusal?_eq_none_iff]
  have hfound : stored root ts ≠ [] ↔ ∃ t ∈ ts, find t.path root ≠ none := by
    simp [stored_eq_nil_iff]
  simp only [← hfirst, ← hnone, ← hfound, ← stored_eq_nil_iff, ← eq_ofList_iff, matchTokens_eq]
  by_cases hstored : stored root ts = []
  · simp [hstored, findSome?_refusal?_eq_none hstored]
  · cases ts.findSome? (refusal? root) with
    | some r => simp [hstored]
    | none => simp [hstored, eq_comm]

end Extraction.Transition
