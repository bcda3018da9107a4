import Extraction.Proofs.Transition.PreOrder
import Extraction.Transition.Cursor

/-!
# Extraction.Proofs.Transition.Seek

The search of a cursor, told by its place in the path alone.

A cursor carries a mode and the depth of its last match beside its place, but both
follow from the place (`Cursor.Sound`): the mode is on from the first match, and the
last match of segment `i - 1` was at depth `i - 1`.  So a cursor at place `i` waits for
the first node that carries segment `i`, and `seek` says just that:

* `seek_eq_bind_seekAt?` — the node that is found stands at the position `seekAt?`;
* `seek_append_of_not_carries`, `seek_append_of_eq_some` — seeking in two stretches;
* `Cursor.Sound.offered` — what one offer does to a sound cursor;
* `Cursor.reach?_eq_seekAt?` — offering nodes one after the other stops at that position;
* `Cursor.follow_eq_seek`, `find_eq_seek` — and answers its node;
* `Cursor.follow_eq_stretch` — and tells of the segments before it that matched.
-/

namespace Extraction.Transition

open Document

/-! ## seeking -/

/-- The node lies at depth `i` and its key matches segment `i` of the path. -/
def carries (path : List String) (i : Nat) (v : Visit) : Bool :=
  v.depth == i && path[i]?.any v.key.matches

/-- `carries` compares depth and place of the segment, and its text with the key. -/
theorem carries_iff {path : List String} {i : Nat} {v : Visit} :
    carries path i v = true ↔ v.depth = i ∧ ∃ s, path[i]? = some s ∧ v.key.matches s = true := by
  simp [carries, Option.any_eq_true]

/-- Takes the first node that carries segment `i`, then the first one behind it that
carries segment `i + 1`, and so on.  Answers the node of the last segment. -/
def seek (path : List String) (i : Nat) : List Visit → Option Visit
  | [] => none
  | v :: vs =>
    if carries path i v then
      if i + 1 = path.length then some v else seek path (i + 1) vs
    else seek path i vs

/-- `seek` passes over a node that does not carry the segment. -/
theorem seek_cons_of_not_carries {path : List String} {i : Nat} {v : Visit}
    (h : carries path i v = false) (vs : List Visit) :
    seek path i (v :: vs) = seek path i vs := by
  simp [seek, h]

/-- `seek` answers the node that carries the last segment. -/
theorem seek_cons_of_last {path : List String} {i : Nat} {v : Visit}
    (h : carries path i v = true) (hi : i + 1 = path.length) (vs : List Visit) :
    seek path i (v :: vs) = some v := by
  simp [seek, h, hi]

/-- `seek` goes on with the next segment behind a node that carries any other one. -/
theorem seek_cons_of_carries {path : List String} {i : Nat} {v : Visit}
    (h : carries path i v = true) (hi : i + 1 ≠ path.length) (vs : List Visit) :
    seek path i (v :: vs) = seek path (i + 1) vs := by
  simp [seek, h, hi]

/-! ## the position of what is found -/

/-- The position of the node that `seek` answers. -/
def seekAt? (path : List String) (i : Nat) : List Visit → Option Nat
  | [] => none
  | v :: vs =>
    if carries path i v then
      if i + 1 = path.length then some 0 else (seekAt? path (i + 1) vs).map (· + 1)
    else (seekAt? path i vs).map (· + 1)

section

variable {path : List String} {i : Nat}

theorem seekAt?_cons_of_not_carries {v : Visit} (h : carries path i v = false)
    (vs : List Visit) : seekAt? path i (v :: vs) = (seekAt? path i vs).map (· + 1) := by
  simp [seekAt?, h]

theorem seekAt?_cons_of_last {v : Visit} (h : carries path i v = true)
    (hi : i + 1 = path.length) (vs : List Visit) : seekAt? path i (v :: vs) = some 0 := by
  simp [seekAt?, h, hi]

theorem seekAt?_cons_of_carries {v : Visit} (h : carries path i v = true)
    (hi : i + 1 ≠ path.length) (vs : List Visit) :
    seekAt? path i (v :: vs) = (seekAt? path (i + 1) vs).map (· + 1) := by
  simp [seekAt?, h, hi]

/-- `seekAt?` passes over nodes none of which carries the segment, and counts them. -/
theorem seekAt?_append_of_not_carries {us : List Visit}
    (h : ∀ v ∈ us, carries path i v = false) (vs : List Visit) :
    seekAt? path i (us ++ vs) = (seekAt? path i vs).map (us.length + ·) := by
  induction us with
  | nil => simp
  | cons u us ih =>
      have hu : carries path i u = false := h u List.mem_cons_self
      rw [List.cons_append, seekAt?_cons_of_not_carries hu,
        ih fun v hv => h v (List.mem_cons_of_mem u hv), Option.map_map, List.length_cons]
      congr 1
      funext n
      exact Nat.add_right_comm us.length n 1

/-- Either the first node ends the search, or the search goes on behind it, and for which
segment it does does not depend on the nodes there. -/
theorem seek_cons_cases (path : List String) (i : Nat) (v : Visit) :
    (carries path i v = true ∧ i + 1 = path.length ∧
      ∀ vs, seek path i (v :: vs) = some v ∧ seekAt? path i (v :: vs) = some 0) ∨
    ∃ j, ∀ vs, seek path i (v :: vs) = seek path j vs ∧
      seekAt? path i (v :: vs) = (seekAt? path j vs).map (· + 1) := by
  cases hc : carries path i v with
  | false =>
      exact .inr ⟨i, fun vs => ⟨seek_cons_of_not_carries hc vs, seekAt?_cons_of_not_carries hc vs⟩⟩
  | true =>
      by_cases hi : i + 1 = path.length
      · exact .inl ⟨rfl, hi, fun vs => ⟨seek_cons_of_last hc hi vs, seekAt?_cons_of_last hc hi vs⟩⟩
      · exact .inr ⟨i + 1, fun vs =>
          ⟨seek_cons_of_carries hc hi vs, seekAt?_cons_of_carries hc hi vs⟩⟩

/-- What `seekAt?` has found no later node changes. -/
theorem seekAt?_append_of_eq_some {us : List Visit} {n : Nat}
    (h : seekAt? path i us = some n) (vs : List Visit) :
    seekAt? path i (us ++ vs) = some n := by
  induction us generalizing i n with
  | nil => simp [seekAt?] at h
  | cons u us ih =>
      rcases seek_cons_cases path i u with ⟨-, -, hends⟩ | ⟨j, hgoes⟩
      · rw [(hends us).2] at h
        rw [List.cons_append, (hends (us ++ vs)).2, h]
      · rw [(hgoes us).2, Option.map_eq_some_iff] at h
        obtain ⟨m, hm, rfl⟩ := h
        rw [List.cons_append, (hgoes (us ++ vs)).2, ih hm, Option.map_some]

/-- The search stops at a node that carries the last segment. -/
theorem exists_carries_of_seekAt? {vs : List Visit} {n : Nat} (h : seekAt? path i vs = some n) :
    ∃ j v, j + 1 = path.length ∧ vs[n]? = some v ∧ carries path j v = true := by
  induction vs generalizing i n with
  | nil => simp [seekAt?] at h
  | cons v vs ih =>
      rcases seek_cons_cases path i v with ⟨hc, hi, hends⟩ | ⟨j, hgoes⟩
      · rw [(hends vs).2] at h
        obtain rfl : 0 = n := Option.some.inj h
        exact ⟨i, v, hi, rfl, hc⟩
      · rw [(hgoes vs).2, Option.map_eq_some_iff] at h
        obtain ⟨m, hm, rfl⟩ := h
        exact ih hm

theorem bind_map_add_one (r : Option Nat) (v : Visit) (vs : List Visit) :
    ((r.map (· + 1)).bind fun n => (v :: vs)[n]?) = r.bind fun n => vs[n]? := by
  cases r <;> rfl

/-- `seek` answers the node at the position that `seekAt?` counts to. -/
theorem seek_eq_bind_seekAt? (path : List String) (i : Nat) (vs : List Visit) :
    seek path i vs = (seekAt? path i vs).bind fun n => vs[n]? := by
  induction vs generalizing i with
  | nil => rfl
  | cons v vs ih =>
      rcases seek_cons_cases path i v with ⟨-, -, hends⟩ | ⟨j, hgoes⟩
      · rw [(hends vs).1, (hends vs).2]
        rfl
      · rw [(hgoes vs).1, (hgoes vs).2, bind_map_add_one, ih]

/-- Nodes that do not carry the segment are passed over. -/
theorem seek_append_of_not_carries {us : List Visit}
    (h : ∀ v ∈ us, carries path i v = false) (vs : List Visit) :
    seek path i (us ++ vs) = seek path i vs := by
  rw [seek_eq_bind_seekAt?, seek_eq_bind_seekAt?, seekAt?_append_of_not_carries h,
    Option.bind_map]
  congr 1
  funext n
  rw [Function.comp_apply, List.getElem?_append_right (Nat.le_add_right _ _),
    Nat.add_sub_cancel_left]

/-- What is found in a stretch is found whatever comes after it. -/
theorem seek_append_of_eq_some {us : List Visit} {x : Visit}
    (h : seek path i us = some x) (vs : List Visit) : seek path i (us ++ vs) = some x := by
  rw [seek_eq_bind_seekAt?, Option.bind_eq_some_iff] at h
  obtain ⟨n, hn, hx⟩ := h
  have hlt : n < us.length := (List.getElem?_eq_some_iff.1 hx).1
  rw [seek_eq_bind_seekAt?, seekAt?_append_of_eq_some hn, Option.bind_some,
    List.getElem?_append_left hlt, hx]

end

/-! ## the segments on the way -/

/-- The place of the segment that is looked for when the search is over: that of the last one
if its node is found. -/
def stopsAt (path : List String) (i : Nat) : List Visit → Nat
  | [] => i
  | v :: vs =>
    if carries path i v then
      if i + 1 = path.length then i else stopsAt path (i + 1) vs
    else stopsAt path i vs

/-- The segments of a path from place `i` on and before place `j`, each at the depth that is
its place. -/
def stretch (path : List String) (i j : Nat) : List Cursor.Step :=
  (((path.take j).drop i).zipIdx i).map fun s => ⟨s.1, s.2⟩

section

variable {path : List String} {i : Nat}

/-- A node that does not carry the segment is no stop. -/
theorem stopsAt_cons_of_not_carries {v : Visit} (h : carries path i v = false)
    (vs : List Visit) : stopsAt path i (v :: vs) = stopsAt path i vs := by
  simp [stopsAt, h]

/-- Nothing is told at the last segment. -/
theorem stopsAt_cons_of_last {v : Visit} (h : carries path i v = true)
    (hi : i + 1 = path.length) (vs : List Visit) : stopsAt path i (v :: vs) = i := by
  simp [stopsAt, h, hi]

/-- A node that carries any other segment is a stop. -/
theorem stopsAt_cons_of_carries {v : Visit} (h : carries path i v = true)
    (hi : i + 1 ≠ path.length) (vs : List Visit) :
    stopsAt path i (v :: vs) = stopsAt path (i + 1) vs := by
  simp [stopsAt, h, hi]

/-- `stopsAt` only goes on along the path. -/
theorem le_stopsAt (path : List String) (i : Nat) (vs : List Visit) : i ≤ stopsAt path i vs := by
  induction vs generalizing i with
  | nil => exact Nat.le_refl i
  | cons v vs ih =>
      rw [stopsAt]
      split
      · split
        · exact Nat.le_refl i
        · exact Nat.le_of_succ_le (ih (i + 1))
      · exact ih i

/-- The search stops at a segment of the path, if it starts at one. -/
theorem stopsAt_le (path : List String) (i : Nat) (vs : List Visit) :
    stopsAt path i vs ≤ max i (path.length - 1) := by
  induction vs generalizing i with
  | nil => exact Nat.le_max_left i _
  | cons v vs ih =>
      rw [stopsAt]
      split
      · next hc =>
        obtain ⟨-, s, hs, -⟩ := carries_iff.1 hc
        have hlt : i < path.length := (List.getElem?_eq_some_iff.1 hs).1
        split
        · exact Nat.le_max_left i _
        · have := ih (i + 1)
          omega
      · exact ih i

/-- A `stretch` has a step for each of its segments. -/
theorem length_stretch {j : Nat} (hj : j ≤ path.length) : (stretch path i j).length = j - i := by
  rw [stretch, List.length_map, List.length_zipIdx, List.length_drop, List.length_take,
    Nat.min_eq_left hj]

theorem stretch_self (path : List String) (i : Nat) : stretch path i i = [] := by
  have hdrop : (path.take i).drop i = [] := List.drop_eq_nil_of_le (List.length_take_le i path)
  rw [stretch, hdrop]
  rfl

/-- A `stretch` begins with the step of its first segment. -/
theorem stretch_of_lt {s : String} {j : Nat} (hs : path[i]? = some s) (hij : i < j) :
    stretch path i j = ⟨s, i⟩ :: stretch path (i + 1) j := by
  obtain ⟨hlt, rfl⟩ := List.getElem?_eq_some_iff.1 hs
  have htake : i < (path.take j).length := by
    rw [List.length_take]
    omega
  rw [stretch, List.drop_eq_getElem_cons htake, List.zipIdx_cons, List.map_cons,
    List.getElem_take, stretch]

end

/-! ## cursors -/

namespace Cursor

/-- The mode and the depth of a cursor are those of its place in the path. -/
structure Sound (c : Cursor) : Prop where
  mode : c.inSearchMode = true ↔ 0 < c.searchingFor
  depth : c.inSearchMode = true → c.previousDepth = some (c.searchingFor - 1)

/-- A cursor is `Sound` at the start of a path. -/
theorem sound_start (path : List String) : (start path).Sound :=
  ⟨by simp [start], by simp [start]⟩

/-- What offering the node `v` to the cursor `c` can come to. -/
inductive Offered (c : Cursor) (v : Visit) : Offer → Prop
  /-- The node carries the last segment. -/
  | reached : carries c.path c.searchingFor v = true → c.searchingFor + 1 = c.path.length →
      Offered c v .reached
  /-- The node carries an earlier segment, and the next one is looked for. -/
  | matched {segment : String} {next : Cursor} : carries c.path c.searchingFor v = true →
      c.searchingFor + 1 ≠ c.path.length → c.path[c.searchingFor]? = some segment →
      next.Sound → next.path = c.path → next.searchingFor = c.searchingFor + 1 →
      Offered c v (.matched segment next)
  /-- The node does not carry the segment, which is still looked for. -/
  | passed {next : Cursor} : carries c.path c.searchingFor v = false →
      next.Sound → next.path = c.path → next.searchingFor = c.searchingFor →
      Offered c v (.passed next)

/-- The depth that a cursor compares with is the one before its place. -/
theorem Sound.previous_eq {c : Cursor} (h : c.Sound) (hm : c.inSearchMode = true) (d : Nat) :
    c.previousDepth.getD d + 1 = c.searchingFor := by
  have hpos : 0 < c.searchingFor := h.mode.1 hm
  rw [h.depth hm, Option.getD_some]
  omega

/-- Passing over a node keeps the place, and with it the mode and the depth. -/
theorem Sound.passed {c : Cursor} (h : c.Sound) (d : Nat) :
    Sound { c with previousDepth := some (c.previousDepth.getD d) } := by
  refine ⟨h.mode, fun hm => ?_⟩
  show some (c.previousDepth.getD d) = some (c.searchingFor - 1)
  rw [h.depth hm, Option.getD_some]

/-- Whatever node a `Sound` cursor is offered, it does what `Offered` says, and so its place alone
decides. -/
theorem Sound.offered {c : Cursor} (h : c.Sound) (v : Visit) : Offered c v (c.offer v) := by
  have hpass := h.passed v.depth
  simp only [offer]
  split
  · next hskip =>
    obtain ⟨hm, hd⟩ : c.inSearchMode = true ∧ v.depth ≠ c.previousDepth.getD v.depth + 1 := by
      simpa using hskip
    rw [h.previous_eq hm] at hd
    exact .passed (by simp [carries, hd]) hpass rfl rfl
  · split
    · next hnone => exact .passed (by simp [carries, hnone]) hpass rfl rfl
    · next segment hsegment =>
      split
      · next hno =>
        refine .passed ?_ hpass rfl rfl
        simp only [carries, hsegment, Option.any_some]
        by_cases hd : v.depth = c.searchingFor <;> simp_all
      · next hyes =>
        obtain ⟨hd, hk⟩ : v.depth = c.searchingFor ∧ v.key.matches segment = true := by
          simpa using hyes
        have hc : carries c.path c.searchingFor v = true :=
          carries_iff.2 ⟨hd, segment, hsegment, hk⟩
        split
        · next hlast => exact .reached hc (by rw [← hd]; exact hlast)
        · next hlast =>
          have hsound : Sound ⟨c.path, c.searchingFor + 1, some v.depth, true⟩ :=
            ⟨by simp, fun _ => by simp [hd]⟩
          exact .matched hc (by rw [← hd]; exact hlast) hsegment hsound rfl rfl

/-- The number of nodes that a cursor passes until it comes to the one its path leads to. -/
def reach? (c : Cursor) : List Visit → Option Nat
  | [] => none
  | v :: vs =>
    match c.offer v with
    | .reached => some 0
    | .matched _ next => (next.reach? vs).map (· + 1)
    | .passed next => (next.reach? vs).map (· + 1)

/-- `follow` answers the node at the position that `reach?` counts to. -/
theorem follow_eq_bind_reach? (c : Cursor) (vs : List Visit) :
    (c.follow vs).2 = (c.reach? vs).bind fun n => vs[n]? := by
  induction vs generalizing c with
  | nil => rfl
  | cons v vs ih =>
      simp only [follow, reach?]
      cases c.offer v with
      | reached => rfl
      | matched segment next => rw [bind_map_add_one, ← ih next]
      | passed next => rw [bind_map_add_one, ← ih next]

/-- A `Sound` cursor stops where `seekAt?` does, by induction over the nodes. -/
theorem reach?_eq_seekAt? {c : Cursor} (h : c.Sound) (vs : List Visit) :
    c.reach? vs = seekAt? c.path c.searchingFor vs := by
  induction vs generalizing c with
  | nil => rfl
  | cons v vs ih =>
      have hoffered := h.offered v
      rw [reach?]
      generalize c.offer v = o at hoffered ⊢
      cases hoffered with
      | reached hc hi => rw [seekAt?_cons_of_last hc hi]
      | matched hc hi _ hnext hp hf =>
          rw [seekAt?_cons_of_carries hc hi, ← hp, ← hf, ← ih hnext]
      | passed hc hnext hp hf =>
          rw [seekAt?_cons_of_not_carries hc, ← hp, ← hf, ← ih hnext]

/-- A `Sound` cursor answers the node that `seek` does. -/
theorem follow_eq_seek {c : Cursor} (h : c.Sound) (vs : List Visit) :
    (c.follow vs).2 = seek c.path c.searchingFor vs := by
  rw [follow_eq_bind_reach?, reach?_eq_seekAt? h, seek_eq_bind_seekAt?]

/-- The matches that a cursor tells of are the segments from its own to the one before that
at which the search stops. -/
theorem follow_eq_stretch {c : Cursor} (h : c.Sound) (vs : List Visit) :
    (c.follow vs).1 = stretch c.path c.searchingFor (stopsAt c.path c.searchingFor vs) := by
  induction vs generalizing c with
  | nil => rw [stopsAt, stretch_self]; rfl
  | cons v vs ih =>
      have hoffered := h.offered v
      rw [follow]
      generalize c.offer v = o at hoffered ⊢
      cases hoffered with
      | reached hc hi => rw [stopsAt_cons_of_last hc hi, stretch_self]
      | matched hc hi hs hnext hp hf =>
          have hle := le_stopsAt c.path (c.searchingFor + 1) vs
          obtain ⟨hd, -⟩ := carries_iff.1 hc
          rw [stopsAt_cons_of_carries hc hi, stretch_of_lt hs hle, ← hp, ← hf, ← ih hnext, ← hd]
      | passed hc hnext hp hf =>
          rw [stopsAt_cons_of_not_carries hc, ← hp, ← hf, ← ih hnext]

end Cursor

/-- Following a path from a root is seeking its segments among the nodes below the root. -/
theorem trace_eq_seek (path : List String) (root : Value) :
    (trace path root).2 = seek path 0 (below 0 root) := by
  rw [trace, preOrder_eq_below]
  exact Cursor.follow_eq_seek (Cursor.sound_start path) _

/-- `find` is `seek` for the whole path through all nodes of the document. -/
theorem find_eq_seek (path : List String) (root : Value) :
    find path root = (seek path 0 (below 0 root)).map Visit.value := by
  rw [find, trace_eq_seek]

end Extraction.Transition
