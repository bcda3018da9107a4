import Extraction.Proofs.Transition.Place

/-!
# Extraction.Proofs.Transition.Calls

A walk as it is used: asked for the next node again and again, also when it is over.

One call goes in rounds.  A round leaves the innermost level if that is finished, and else
answers the next node of that level; every round but the last closes a level, so a call ends.
What the calls answer is what the stack still holds, in order, and nothing from then on:

* `rounds_eq_step` — a call ends, within one round more than there are open levels;
* `answer_eq_getElem?` — the calls answer the visits of the walk one by one;
* `answer_start` — for a walk from a root these are the nodes of the recursive traversal,
  each of them once, before the nodes below it and next to them.
-/

namespace Extraction.Transition

open Document

namespace Walk

/-! ## the rounds of one call -/

/-- What a round comes to: a finished level was left, or the answer of the call is there. -/
inductive Round where
  | again (stack : List Frame)
  | done (next : Option (Visit × List Frame))

/-- One round of a call on a stack. -/
def round : List Frame → Round
  | [] => .done none
  | ⟨_, []⟩ :: stack => .again stack
  | ⟨depth, (key, value) :: rest⟩ :: stack =>
    .done (some (⟨key, value, depth⟩, opened (depth + 1) value ++ ⟨depth, rest⟩ :: stack))

/-- The answer of a call, if it is there after at most `n` rounds. -/
def rounds : Nat → List Frame → Option (Option (Visit × List Frame))
  | 0, _ => none
  | n + 1, stack =>
    match round stack with
    | .again stack => rounds n stack
    | .done next => some next

/-- A round more than there are open levels is enough, and its answer is that of the step. -/
theorem rounds_eq_step {stack : List Frame} {n : Nat} (hn : stack.length < n) :
    rounds n stack = some (step stack) := by
  induction stack generalizing n with
  | nil =>
      obtain ⟨n, rfl⟩ := Nat.exists_eq_add_of_lt hn
      rfl
  | cons f stack ih =>
      obtain ⟨n, rfl⟩ : ∃ m, n = m + 1 := ⟨n - 1, by omega⟩
      obtain ⟨depth, rest⟩ := f
      cases rest with
      | nil =>
          rw [rounds, round, step]
          exact ih (by simpa using hn)
      | cons c rest => rfl

/-! ## one call after the other -/

/-- The walk after a call; a walk that is over has left every level. -/
def advance (w : Walk) : Walk :=
  match w.next with
  | some (_, w') => w'
  | none => ⟨[]⟩

/-- The answer of call `n` of those that a walk is asked, the first one being call zero. -/
def answer (w : Walk) : Nat → Option Visit
  | 0 => w.next.map Prod.fst
  | n + 1 => w.advance.answer n

/-- The calls answer the visits of the walk, and nothing after the last one. -/
theorem answer_eq_getElem? (w : Walk) (n : Nat) : w.answer n = w.visits[n]? := by
  induction n generalizing w with
  | zero =>
      cases hw : w.next with
      | none => rw [visits_of_next_eq_none hw, answer, hw]; rfl
      | some r => rw [visits_of_next_eq_some hw, answer, hw]; rfl
  | succ n ih =>
      rw [answer, ih]
      cases hw : w.next with
      | none =>
          have hover : visits ⟨[]⟩ = [] := visits_of_next_eq_none rfl
          rw [advance, hw, hover, visits_of_next_eq_none hw]
          rfl
      | some r =>
          rw [advance, hw, visits_of_next_eq_some hw, List.getElem?_cons_succ]

end Walk

/-! ## the calls of a walk from a root -/

/-- **The walk is the recursive traversal**: asked again and again, a walk from a root answers
the nodes that the recursion on the document lists, one a call, and nothing from then on.
Call `n` answers the node with number `n + 1`, with its key in its parent and its depth, which
is the length of its parent's place, one more than the depth of that; each call belongs to one
node and each node to one call.  The nodes below a node have the numbers next after its own.
No call runs on for ever, on whatever stack. -/
theorem answer_start (root : Value) :
    (∀ n, (Walk.start root).answer n = (below 0 root)[n]?) ∧
    (∀ parent y i c, valueAt? root parent = some y → (children y)[i]? = some c →
      ∃ n, number root (parent ++ [i]) = n + 1 ∧
        (Walk.start root).answer n = some ⟨c.1, c.2, parent.length⟩) ∧
    (∀ n, n < (below 0 root).length →
      ∃ place, ((valueAt? root place).isSome ∧ number root place = n + 1) ∧
        ∀ q, (valueAt? root q).isSome → number root q = n + 1 → q = place) ∧
    (∀ place x q, valueAt? root place = some x → (valueAt? root q).isSome →
      ((∃ rest, rest ≠ [] ∧ q = place ++ rest) ↔
        number root place < number root q ∧ number root q < number root place + x.size)) ∧
    (∀ stack, Walk.rounds (stack.length + 1) stack = some (Walk.step stack)) := by
  have hanswer (n : Nat) : (Walk.start root).answer n = (below 0 root)[n]? := by
    rw [Walk.answer_eq_getElem?, ← preOrder_eq_below, preOrder]
  refine ⟨hanswer, ?_, ?_, ?_, fun stack => Walk.rounds_eq_step (Nat.lt_succ_self _)⟩
  · intro parent y i c hy hc
    obtain ⟨before, after, hbelow, hnumber⟩ := exists_below_eq_append 0 hy hc
    refine ⟨before.length, hnumber, ?_⟩
    rw [hanswer, hbelow, Nat.zero_add]
    simp
  · intro n hn
    have hsize := length_below 0 root
    obtain ⟨place, x, hx, hnumber⟩ := exists_number (v := root) (n := n + 1) (by omega)
    refine ⟨place, ⟨by rw [hx]; rfl, hnumber⟩, fun q hq hnq => ?_⟩
    obtain ⟨y, hy⟩ := Option.isSome_iff_exists.1 hq
    exact number_injective hy hx (hnq.trans hnumber.symm)
  -- the nodes below a place are those whose numbers fall into the stretch of its subtree
  · intro place x q hx hq
    obtain ⟨y, hy⟩ := Option.isSome_iff_exists.1 hq
    constructor
    · rintro ⟨rest, hrest, rfl⟩
      have hbounds := (isPrefix_iff_number hx hy).1 (List.prefix_append place rest)
      have hne : number root place ≠ number root (place ++ rest) := fun h =>
        hrest (List.append_right_eq_self.1 (number_injective hx hy h).symm)
      omega
    · rintro ⟨hlt, hle⟩
      obtain ⟨rest, rfl⟩ := (isPrefix_iff_number hx hy).2 ⟨Nat.le_of_lt hlt, hle⟩
      refine ⟨rest, ?_, rfl⟩
      rintro rfl
      rw [List.append_nil] at hlt
      exact Nat.lt_irrefl _ hlt

end Extraction.Transition
