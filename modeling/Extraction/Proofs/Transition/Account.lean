import Extraction.Proofs.Transition.Chain
import Extraction.Proofs.Transition.Matching
import Mathlib.Data.List.Forall2

/-!
# Extraction.Proofs.Transition.Account

What matching tells the log.

Each token is told of in turn: while its path is followed, the segments that match on the way,
and behind them one record that says how it ended,

```
TRACE  path[0] at depth 0
…
TRACE  path[j-1] at depth j-1
WARN   matched nothing            or   DEBUG  resolved, with the output name
```

A token that is refused has no record at its end, and it is the last one that is told of:

* `IsAccount` — the records of one token;
* `isAccount` — a token is told of in such records;
* `exists_toldUpTo` — the tokens that are told of;
* `log_matchTokens` — the log of a list of tokens.
-/

namespace Extraction.Transition

open Document

/-! ## one token -/

/-- The records of a token: what is told on the way along its path, and what is told at the
end.  On the way these are the first segments of the path, each at the depth of its place. -/
structure IsAccount (root : Value) (t : Token) (way closing : List Record) : Prop where
  way_eq : way = (t.path.take way.length).zipIdx.map fun s => .matched ⟨s.1, s.2⟩
  /-- All segments but the last one match on the way to a value. -/
  length_of_found : ∀ v, find t.path root = some v → t.path.length = way.length + 1
  /-- On the way to nothing, the segments match that have a position in the chain. -/
  length_of_lost : find t.path root = none →
    ∀ i, (∃ p, Chain (below 0 root) t.path i p) ↔ i < way.length
  unmatched_iff : closing = [.unmatched t] ↔ find t.path root = none
  resolved_iff : ∀ v, closing = [.resolved t v] ↔
    find t.path root = some v ∧ ∀ r, ¬ Refused root t r
  empty_iff : closing = [] ↔ ∃ r, Refused root t r

/-- What is told on the way along the path of a token. -/
def way (root : Value) (t : Token) : List Record := (trace t.path root).1.map .matched

/-- What is told of a token when its path has been followed. -/
def closing (root : Value) (t : Token) : List Record :=
  match find t.path root with
  | none => [.unmatched t]
  | some v =>
    match refusal? root t with
    | none => [.resolved t v]
    | some _ => []

/-- What `trace` tells is a `stretch` of the path, one segment for each stop. -/
theorem trace_eq_stretch (path : List String) (root : Value) :
    (trace path root).1 = stretch path 0 (stopsAt path 0 (below 0 root)) := by
  rw [trace, preOrder_eq_below]
  exact Cursor.follow_eq_stretch (Cursor.sound_start path) _

/-- On the `way` as many records are told as there are stops. -/
theorem length_way (root : Value) (t : Token) :
    (way root t).length = stopsAt t.path 0 (below 0 root) := by
  have hle : stopsAt t.path 0 (below 0 root) ≤ max 0 (t.path.length - 1) := stopsAt_le _ _ _
  rw [way, List.length_map, trace_eq_stretch, length_stretch (by omega), Nat.sub_zero]

/-- The records that a token leaves are an `IsAccount` of it, whether a value is found, refused or
missed. -/
theorem isAccount (root : Value) (t : Token) : IsAccount root t (way root t) (closing root t) where
  way_eq := by
    rw [length_way, way, trace_eq_stretch, stretch, List.map_map]
    rfl
  length_of_found v hv := by
    have hstops := stops_seekAt? (below 0 root) t.path
    rw [find_eq_position?, position?_eq_seekAt?, Option.bind_eq_some_iff] at hv
    obtain ⟨p, hp, -⟩ := hv
    rw [hp] at hstops
    rw [length_way]
    exact hstops.1
  length_of_lost hv := by
    have hstops := stops_seekAt? (below 0 root) t.path
    rw [find_eq_none_iff_position?, position?_eq_seekAt?] at hv
    rw [hv] at hstops
    rw [length_way]
    exact hstops
  unmatched_iff := by
    rw [closing]
    cases find t.path root with
    | none => simp
    | some v => cases refusal? root t <;> simp
  resolved_iff v := by
    rw [closing, ← refusal?_eq_none_iff]
    cases find t.path root with
    | none => simp
    | some v => cases refusal? root t <;> simp
  empty_iff := by
    simp only [← refusal?_eq_some_iff, closing]
    cases hv : find t.path root with
    | none => simp [refusal?, hv]
    | some v => cases refusal? root t <;> simp

/-! ## a list of tokens -/

/-- A refused token is the last one that is told of. -/
theorem log_collect_cons (root : Value) (t : Token) (ts : List Token) :
    (collect root (t :: ts)).1 = way root t ++ closing root t ++
      match refusal? root t with
      | none => (collect root ts).1
      | some _ => [] := by
  simp only [collect, validate_eq, way, closing, refusal?, find]
  cases (trace t.path root).2 with
  | none => simp
  | some visit =>
      simp only [Option.map_some, Option.bind_some]
      cases rejection? visit.value t <;> simp

/-- The tokens that are told of: all of a list, or those up to the first refused one. -/
def ToldUpTo (root : Value) (told rest : List Token) : Prop :=
  (rest = [] ∧ ∀ t ∈ told, ∀ r, ¬ Refused root t r) ∨
  ∃ before t r, told = before ++ [t] ∧ (∀ u ∈ before, ∀ r', ¬ Refused root u r') ∧
    Refused root t r

/-- A token that is not refused is told of before those behind it. -/
theorem ToldUpTo.cons {root : Value} {t : Token} {told rest : List Token}
    (ht : ∀ r, ¬ Refused root t r) (h : ToldUpTo root told rest) :
    ToldUpTo root (t :: told) rest := by
  rcases h with ⟨hrest, htold⟩ | ⟨before, u, r, rfl, hbefore, hu⟩
  · exact .inl ⟨hrest, List.forall_mem_cons.2 ⟨ht, htold⟩⟩
  · exact .inr ⟨t :: before, u, r, rfl, List.forall_mem_cons.2 ⟨ht, hbefore⟩, hu⟩

/-- `collect` tells the `way` and the `closing` of one token after the other, `ToldUpTo` the first
refused one. -/
theorem exists_toldUpTo (root : Value) (ts : List Token) :
    ∃ told rest, ts = told ++ rest ∧ ToldUpTo root told rest ∧
      (collect root ts).1 = told.flatMap fun t => way root t ++ closing root t := by
  induction ts with
  | nil => exact ⟨[], [], rfl, .inl ⟨rfl, by simp⟩, rfl⟩
  | cons t ts ih =>
      rw [log_collect_cons]
      cases hr : refusal? root t with
      | some r =>
          have ht : Refused root t r := refusal?_eq_some_iff.1 hr
          exact ⟨[t], ts, rfl, .inr ⟨[], t, r, rfl, by simp, ht⟩, by simp⟩
      | none =>
          obtain ⟨told, rest, rfl, htold, hlog⟩ := ih
          have ht : ∀ r, ¬ Refused root t r := refusal?_eq_none_iff.1 hr
          exact ⟨t :: told, rest, rfl, htold.cons ht, by rw [hlog, List.flatMap_cons]⟩

/-! ## wording -/

/-- The levels and the texts of the records that matching tells. -/
inductive Tells : Record → Log.Level → String → Prop
  | matched (s : Cursor.Step) : Tells (.matched s) .trace
      ("matched '" ++ s.segment ++ "' at depth " ++ Decimal.text s.depth)
  | unmatched (t : Token) : Tells (.unmatched t) .warn
      ("transition '" ++ t.expression ++ "' matched nothing")
  | resolved (t : Token) (v : Value) : Tells (.resolved t v) .debug
      ("transition '" ++ t.expression ++ "' resolved to " ++ v.typeName ++ " stored as '" ++
        t.outputName ++ "'")

/-- Whatever is told of a token has the level and the wording of `Tells`. -/
theorem tells_of_mem {root : Value} {t : Token} {record : Record}
    (h : record ∈ way root t ++ closing root t) : Tells record record.level record.text := by
  rcases List.mem_append.1 h with h | h
  · obtain ⟨s, -, rfl⟩ := List.mem_map.1 h
    exact .matched s
  · rw [closing] at h
    split at h
    · obtain rfl := List.mem_singleton.1 h
      exact .unmatched t
    · split at h
      · obtain rfl := List.mem_singleton.1 h
        exact .resolved t _
      · cases h

/-- **The log of matching**: the tokens are told of in their order, up to the first one that is
refused, each by the records of its way, from the first segment of its path on without a gap or
a repetition, and by at most one record behind them.  This is a warning just if the token leads
nowhere, and tells of its output name just if it leads to a value that its checks pass; there is
none just if it is refused. -/
theorem log_matchTokens (ts : List Token) (root : Value) :
    ∃ (told rest : List Token) (accounts : List (List Record × List Record)),
      ts = told ++ rest ∧ ToldUpTo root told rest ∧
      List.Forall₂ (fun t a => IsAccount root t a.1 a.2) told accounts ∧
      (matchTokens ts root).1 = accounts.flatMap (fun a => a.1 ++ a.2) ∧
      ∀ record ∈ (matchTokens ts root).1, Tells record record.level record.text := by
  obtain ⟨told, rest, hts, htold, hlog⟩ := exists_toldUpTo root ts
  have hmatch : (matchTokens ts root).1 = told.flatMap fun t => way root t ++ closing root t := hlog
  refine ⟨told, rest, told.map fun t => (way root t, closing root t), hts, htold, ?_, ?_, ?_⟩
  · exact List.forall₂_map_right_iff.2 (List.forall₂_same.2 fun t _ => isAccount root t)
  · rw [hmatch, List.flatMap_map]
  · rw [hmatch]
    intro record hrecord
    obtain ⟨t, -, ht⟩ := List.mem_flatMap.1 hrecord
    exact tells_of_mem ht

end Extraction.Transition
