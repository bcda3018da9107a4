/-!
# Extraction.Text.Split

Cutting a text at a delimiter and joining the pieces again.  Texts are lists of
characters here; the callers convert at their boundary.

* `join_split` — joining the pieces of a text gives the text back;
* `split_join` — pieces free of the delimiter survive joining and splitting;
* `length_split` — a text has one piece more than it has delimiters;
* `not_mem_of_mem_split` — no piece holds the delimiter.
-/

namespace Extraction.Text

/-- The pieces of a text between its delimiters; there is always at least one. -/
def split (d : Char) : List Char → List (List Char)
  | [] => [[]]
  | c :: cs =>
    if c = d then [] :: split d cs
    else
      match split d cs with
      | [] => [[c]]
      | p :: ps => (c :: p) :: ps

/-- The pieces one after the other, with a delimiter between two neighbours. -/
def join (d : Char) : List (List Char) → List Char
  | [] => []
  | [p] => p
  | p :: q :: ps => p ++ d :: join d (q :: ps)

/-- The part of a text before its first delimiter, the whole text if it has none. -/
def before (isDelimiter : Char → Bool) (cs : List Char) : List Char :=
  cs.takeWhile fun c => !isDelimiter c

/-! ## splitting -/

theorem split_ne_nil (d : Char) (cs : List Char) : split d cs ≠ [] := by
  cases cs with
  | nil => simp [split]
  | cons c cs =>
    simp only [split]
    split
    · simp
    · split <;> simp

/-- A delimiter in front is preceded by an empty part. -/
theorem split_delimiter (d : Char) (cs : List Char) :
    split d (d :: cs) = [] :: split d cs := by
  simp [split]

/-- A character other than the delimiter belongs to the first piece. -/
theorem split_cons {d c : Char} (h : c ≠ d) {cs p : List Char} {ps : List (List Char)}
    (hs : split d cs = p :: ps) : split d (c :: cs) = (c :: p) :: ps := by
  simp [split, h, hs]

/-- `split` answers one part more than there are delimiters. -/
theorem length_split (d : Char) (cs : List Char) :
    (split d cs).length = cs.count d + 1 := by
  induction cs with
  | nil => rfl
  | cons c cs ih =>
    by_cases h : c = d
    · subst h; simp [split_delimiter, ih]
    · obtain ⟨p, ps, hs⟩ := List.exists_cons_of_ne_nil (split_ne_nil d cs)
      rw [split_cons h hs]
      rw [hs] at ih
      simp [h] at ih ⊢
      exact ih

/-- No part of `split` holds the delimiter. -/
theorem not_mem_of_mem_split {d : Char} {cs p : List Char} (hp : p ∈ split d cs) : d ∉ p := by
  induction cs generalizing p with
  | nil => simp [split] at hp; simp [hp]
  | cons c cs ih =>
    by_cases h : c = d
    · subst h
      rw [split_delimiter] at hp
      rcases List.mem_cons.1 hp with rfl | hp
      · simp
      · exact ih hp
    · obtain ⟨q, qs, hs⟩ := List.exists_cons_of_ne_nil (split_ne_nil d cs)
      rw [split_cons h hs] at hp
      rcases List.mem_cons.1 hp with rfl | hp
      · have hq : d ∉ q := ih (by simp [hs])
        simp [hq, Ne.symm h]
      · exact ih (by simp [hs, hp])

/-! ## joining -/

/-- `join` puts together what `split` has taken apart. -/
theorem join_split (d : Char) (cs : List Char) : join d (split d cs) = cs := by
  induction cs with
  | nil => rfl
  | cons c cs ih =>
    obtain ⟨p, ps, hs⟩ := List.exists_cons_of_ne_nil (split_ne_nil d cs)
    rw [hs] at ih
    by_cases h : c = d
    · subst h; simp [split_delimiter, hs, join, ih]
    · rw [split_cons h hs]
      cases ps with
      | nil => simpa [join] using ih
      | cons q qs => simpa [join] using ih

/-- A piece without the delimiter, followed by the delimiter, is cut off as it stands. -/
theorem split_append_delimiter {d : Char} {p : List Char} (h : d ∉ p) (cs : List Char) :
    split d (p ++ d :: cs) = p :: split d cs := by
  induction p with
  | nil => simp [split_delimiter]
  | cons c p ih =>
    have hc : c ≠ d := fun e => h (by simp [e])
    exact split_cons hc (ih fun m => h (by simp [m]))

/-- A text without delimiter is its only part. -/
theorem split_of_not_mem {d : Char} {p : List Char} (h : d ∉ p) : split d p = [p] := by
  induction p with
  | nil => rfl
  | cons c p ih =>
    have hc : c ≠ d := fun e => h (by simp [e])
    exact split_cons hc (ih fun m => h (by simp [m]))

/-- `split` takes apart what `join` has put together. -/
theorem split_join {d : Char} {ps : List (List Char)} (hne : ps ≠ [])
    (h : ∀ p ∈ ps, d ∉ p) : split d (join d ps) = ps := by
  induction ps with
  | nil => exact absurd rfl hne
  | cons p ps ih =>
    cases ps with
    | nil => simpa [join] using split_of_not_mem (h p (by simp))
    | cons q qs =>
      rw [join, split_append_delimiter (h p (by simp)), ih (by simp) fun r hr => h r (by simp [hr])]

end Extraction.Text
