/-!
# Extraction.Proofs.Postcondition

What holds of every answer of a computation that may fail, with or without a state.

A property of answers is proved along the program: what one step answers is handed to the
next, a failure answers nothing.

* `ensures_bind`, `ensures_map` — steps one after the other;
* `yields_bind`, `yields_mapM` — the same for steps that share a state.
-/

namespace Extraction

variable {ε σ α β : Type}

/-! ## computations that may fail -/

/-- Whatever the computation answers has the property. -/
def Ensures (x : Except ε α) (p : α → Prop) : Prop := ∀ a, x = .ok a → p a

variable {x : Except ε α} {p : α → Prop}

theorem ensures_ok {a : α} (h : p a) : Ensures (.ok a : Except ε α) p := by
  rintro _ ⟨⟩
  exact h

theorem ensures_error (e : ε) : Ensures (.error e) p := nofun

/-- A mapped answer has a property if every answer has it once mapped. -/
theorem ensures_map {f : α → β} {q : β → Prop} (h : Ensures x fun a => q (f a)) :
    Ensures (x.map f) q := by
  cases x with
  | error e => exact ensures_error e
  | ok a => exact ensures_ok (h a rfl)

/-- What one step answers is what the next may rely on. -/
theorem ensures_bind {f : α → Except ε β} {q : β → Prop} (hx : Ensures x p)
    (hf : ∀ a, p a → Ensures (f a) q) : Ensures (x >>= f) q := by
  cases x with
  | error e => exact ensures_error e
  | ok a => exact hf a (hx a rfl)

/-- Nothing need be known of what a step answers. -/
theorem ensures_bind_of_forall {f : α → Except ε β} {q : β → Prop}
    (hf : ∀ a, Ensures (f a) q) : Ensures (x >>= f) q := by
  cases x with
  | error e => exact ensures_error e
  | ok a => exact hf a

/-! ## computations with a state -/

/-- Whatever the computation answers has the property, from whichever state it begins. -/
def Yields (m : StateT σ (Except ε) α) (p : α → Prop) : Prop :=
  ∀ s, Ensures (m.run s) fun r => p r.1

variable {m : StateT σ (Except ε) α}

theorem yields_pure {a : α} (h : p a) : Yields (pure a : StateT σ (Except ε) α) p :=
  fun _ => ensures_ok h

theorem yields_throw (e : ε) : Yields (throw e : StateT σ (Except ε) α) p :=
  fun _ => ensures_error e

/-- A computation without a state, among others that have one. -/
theorem yields_lift (h : Ensures x p) : Yields (x : StateT σ (Except ε) α) p := fun _ =>
  ensures_bind h fun _ ha => ensures_ok ha

/-- The same with a state: what one step answers the next may rely on. -/
theorem yields_bind {f : α → StateT σ (Except ε) β} {q : β → Prop} (hm : Yields m p)
    (hf : ∀ a, p a → Yields (f a) q) : Yields (m >>= f) q := fun s =>
  ensures_bind (hm s) fun r hr => hf r.1 hr r.2

/-- Nothing need be known of what a step answers. -/
theorem yields_bind_of_forall {f : α → StateT σ (Except ε) β} {q : β → Prop}
    (hf : ∀ a, Yields (f a) q) : Yields (m >>= f) q := fun _ =>
  ensures_bind_of_forall fun r => hf r.1 r.2

/-- If every single step yields the property, all answers of `mapM` have it. -/
theorem yields_mapM {f : α → StateT σ (Except ε) β} {q : β → Prop} {xs : List α}
    (h : ∀ a ∈ xs, Yields (f a) q) : Yields (xs.mapM f) fun ys => ∀ b ∈ ys, q b := by
  induction xs with
  | nil => exact yields_pure (by simp)
  | cons a as ih =>
      have htail := ih fun a' ha' => h a' (List.mem_cons_of_mem a ha')
      rw [List.mapM_cons]
      refine yields_bind (h a List.mem_cons_self) fun b hb => yields_bind htail fun bs hbs => ?_
      exact yields_pure (List.forall_mem_cons.2 ⟨hb, hbs⟩)

end Extraction
