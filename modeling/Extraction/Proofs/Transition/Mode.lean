import Extraction.Proofs.Transition.Seek

/-!
# Extraction.Proofs.Transition.Mode

Why the mode of a cursor is not needed.

A cursor that has its mode on passes over every node that is not one level deeper than the
last match.  That level is the place of the segment that is looked for, and with this place the
depth of a node is compared in any case.  So the mode and the depth of the last match decide
nothing, and a search that keeps only its place answers as a cursor does:

* `Simulates` — a search whose state can be reduced to that of another one;
* `Cursor.simulates` — a cursor can be reduced to its place;
* `replies_cursor_eq` — what holds of a cursor between two nodes, and what it answers.
-/

namespace Extraction.Transition

open Document

/-! ## searches -/

section

variable {σ τ : Type}

/-- The answers of a search to nodes that are offered one after the other, up to the first
`true`.  Offering a node leads to the state for the next one, or to none if the node is the one
that is looked for. -/
def replies (offer : σ → Visit → Option σ) (s : σ) : List Visit → List Bool
  | [] => []
  | v :: vs =>
    match offer s v with
    | none => [true]
    | some next => false :: replies offer next vs

/-- The state of a search behind nodes none of which is the one that is looked for. -/
def after? (offer : σ → Visit → Option σ) (s : σ) (vs : List Visit) : Option σ :=
  vs.foldlM offer s

/-- In the states that `Inv` admits, the first search does what the second one does with a part
of the state, and it stays in such states. -/
def Simulates (Inv : σ → Prop) (part : σ → τ) (first : σ → Visit → Option σ)
    (second : τ → Visit → Option τ) : Prop :=
  ∀ s v, Inv s → (first s v = none ∧ second (part s) v = none) ∨
    ∃ next, first s v = some next ∧ second (part s) v = some (part next) ∧ Inv next

namespace Simulates

variable {Inv : σ → Prop} {part : σ → τ} {first : σ → Visit → Option σ}
  {second : τ → Visit → Option τ}

/-- Of two machines one of which `Simulates` the other both reply the same, by induction over the
visits. -/
theorem replies_eq (h : Simulates Inv part first second) {s : σ} (hs : Inv s)
    (vs : List Visit) : replies first s vs = replies second (part s) vs := by
  induction vs generalizing s with
  | nil => rfl
  | cons v vs ih =>
      rw [replies, replies]
      obtain ⟨hfirst, hsecond⟩ | ⟨next, hfirst, hsecond, hnext⟩ := h s v hs
      · rw [hfirst, hsecond]
      · rw [hfirst, hsecond]
        exact congrArg (false :: ·) (ih hnext)

/-- The invariant holds after any visits that the machine goes through. -/
theorem of_after? (h : Simulates Inv part first second) {s s' : σ} (hs : Inv s)
    {vs : List Visit} (hs' : after? first s vs = some s') : Inv s' := by
  induction vs generalizing s with
  | nil =>
      obtain rfl : s = s' := Option.some.inj hs'
      exact hs
  | cons v vs ih =>
      rw [after?, List.foldlM_cons] at hs'
      obtain ⟨hfirst, -⟩ | ⟨next, hfirst, -, hnext⟩ := h s v hs
      · rw [hfirst] at hs'
        cases hs'
      · rw [hfirst] at hs'
        exact ih hnext hs'

end Simulates

end

/-! ## a cursor and its place -/

/-- The cursor for the next node; there is none once the path has led to its node. -/
def Offer.next? : Offer → Option Cursor
  | .reached => none
  | .matched _ next => some next
  | .passed next => some next

/-- Offers a node to a cursor, as a step of a search. -/
def Cursor.offer? (c : Cursor) (v : Visit) : Option Cursor := (c.offer v).next?

/-- A search that keeps only the place of the segment that is looked for, and compares the
depth and the key of a node with it. -/
def advance? (path : List String) (i : Nat) (v : Visit) : Option Nat :=
  if carries path i v then
    if i + 1 = path.length then none else some (i + 1)
  else some i

section

variable {path : List String} {i : Nat} {v : Visit}

/-- `advance?` stays at its segment for a node that does not carry it. -/
theorem advance?_of_not_carries (h : carries path i v = false) : advance? path i v = some i := by
  simp [advance?, h]

/-- `advance?` ends at a node with the last segment. -/
theorem advance?_of_last (h : carries path i v = true) (hi : i + 1 = path.length) :
    advance? path i v = none := by
  simp [advance?, h, hi]

/-- `advance?` goes to the next segment at a node with any other one. -/
theorem advance?_of_carries (h : carries path i v = true) (hi : i + 1 ≠ path.length) :
    advance? path i v = some (i + 1) := by
  simp [advance?, h, hi]

end

namespace Cursor

/-- The cursor looks for a segment of the path, and its mode and depth are those of the place
of this segment. -/
structure Follows (path : List String) (c : Cursor) : Prop where
  path_eq : c.path = path
  lt : c.searchingFor < path.length
  sound : c.Sound

/-- A cursor `Follows` its path from the start. -/
theorem follows_start {path : List String} (h : path ≠ []) : (start path).Follows path :=
  ⟨rfl, List.length_pos_iff.2 h, sound_start path⟩

/-- A cursor goes from place to place as the search does that keeps only its place. -/
theorem simulates (path : List String) :
    Simulates (Follows path) searchingFor offer? (advance? path) := by
  rintro c v ⟨rfl, hlt, hsound⟩
  have hoffered := hsound.offered v
  rw [offer?]
  generalize c.offer v = o at hoffered ⊢
  cases hoffered with
  | reached hc hi => exact .inl ⟨rfl, advance?_of_last hc hi⟩
  | @matched _ next hc hi _ hnext hp hf =>
      refine .inr ⟨next, rfl, ?_, hp, by omega, hnext⟩
      rw [hf, advance?_of_carries hc hi]
  | @passed next hc hnext hp hf =>
      refine .inr ⟨next, rfl, ?_, hp, hf ▸ hlt, hnext⟩
      rw [hf, advance?_of_not_carries hc]

end Cursor

/-- **The mode is redundant**: between two nodes, whatever they are, a cursor for a path that is
not empty looks for a segment of it.  Its mode is on just if that is not the first segment, and
then the last match was at the depth before.  So it answers as a search that keeps only the
place of the segment, up to the first `true`. -/
theorem replies_cursor_eq {path : List String} (hpath : path ≠ []) (vs : List Visit) :
    (∀ c, after? Cursor.offer? (.start path) vs = some c →
      c.path = path ∧ c.searchingFor < path.length ∧
      (c.inSearchMode = true ↔ 0 < c.searchingFor) ∧
      (c.inSearchMode = true → c.previousDepth = some (c.searchingFor - 1))) ∧
    replies Cursor.offer? (.start path) vs = replies (advance? path) 0 vs := by
  have hstart : (Cursor.start path).Follows path := Cursor.follows_start hpath
  refine ⟨fun c hc => ?_, (Cursor.simulates path).replies_eq hstart vs⟩
  obtain ⟨hp, hlt, hsound⟩ := (Cursor.simulates path).of_after? hstart hc
  exact ⟨hp, hlt, hsound.mode, hsound.depth⟩

/-- Nodes that no walk visits in this order: their depths rise and fall by more than one. -/
def strays : List Visit :=
  [⟨.name "b", .null, 7⟩, ⟨.name "a", .null, 0⟩, ⟨.name "b", .null, 8⟩, ⟨.name "a", .null, 0⟩]

/-- The cursor keeps to its place over `strays`, whose depths no document has. -/
theorem replies_cursor_strays :
    ["a", "b"] ≠ [] ∧
    (∀ c, after? Cursor.offer? (.start ["a", "b"]) strays = some c →
      c.path = ["a", "b"] ∧ c.searchingFor < ["a", "b"].length ∧
      (c.inSearchMode = true ↔ 0 < c.searchingFor) ∧
      (c.inSearchMode = true → c.previousDepth = some (c.searchingFor - 1))) ∧
    replies Cursor.offer? (.start ["a", "b"]) strays = replies (advance? ["a", "b"]) 0 strays :=
  ⟨by decide, replies_cursor_eq (by decide) strays⟩

example : replies Cursor.offer? (.start ["a", "b"]) (strays ++ [⟨.name "b", .null, 1⟩]) =
    [false, false, false, false, true] := by decide

end Extraction.Transition
