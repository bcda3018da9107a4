import Extraction.Document.Value

/-!
# Extraction.Proofs.Document.Value

What is said of a document as a whole: that no object in it repeats a key, that its numbers
are of a certain form, and how deep its containers nest.

Each of the three is a recursion over the document, and so is the list of its numbers, with
one function for entries and one for items; the lemmas say what these come to for a list:

* `distinctEntries_iff`, `distinctItems_iff` — the documents in a list have distinct keys;
* `allNumbersEntries_iff`, `allNumbersItems_iff` — their numbers are of the form;
* `allNumbers_iff` — all numbers are of the form if each number in the document is;
* `nestingEntries_le_iff`, `nestingItems_le_iff` — a bound holds if it holds for each.
-/

namespace Extraction.Document

/-- A number in the form that a reader of documents gives it: an integer, with a sign if it
has room for one. -/
def Number.Canonical : Number → Prop
  | .int _ => True
  | .nat n => 0x7FFFFFFFFFFFFFFF < n.toNat
  | .float _ => False

namespace Value

/-! ## documents with distinct keys -/

mutual
/-- Every object of the document has distinct keys. -/
def DistinctKeys : Value → Prop
  | object es => (Entries.keys es).Nodup ∧ DistinctEntries es
  | array xs => DistinctItems xs
  | _ => True

def DistinctEntries : List (String × Value) → Prop
  | [] => True
  | (_, v) :: es => v.DistinctKeys ∧ DistinctEntries es

def DistinctItems : List Value → Prop
  | [] => True
  | v :: xs => v.DistinctKeys ∧ DistinctItems xs
end

/-- `DistinctEntries` is `DistinctKeys` of every value. -/
theorem distinctEntries_iff {es : List (String × Value)} :
    DistinctEntries es ↔ ∀ e ∈ es, e.2.DistinctKeys := by
  induction es with
  | nil => simp [DistinctEntries]
  | cons e es ih => simp [DistinctEntries, ih]

/-- `DistinctItems` is `DistinctKeys` of every item. -/
theorem distinctItems_iff {xs : List Value} : DistinctItems xs ↔ ∀ v ∈ xs, v.DistinctKeys := by
  induction xs with
  | nil => simp [DistinctItems]
  | cons v xs ih => simp [DistinctItems, ih]

/-! ## numbers -/

section

variable (p : Number → Prop)

mutual
/-- Every number of the document has the property. -/
def AllNumbers : Value → Prop
  | object es => AllNumbersEntries es
  | array xs => AllNumbersItems xs
  | number n => p n
  | _ => True

def AllNumbersEntries : List (String × Value) → Prop
  | [] => True
  | (_, v) :: es => AllNumbers v ∧ AllNumbersEntries es

def AllNumbersItems : List Value → Prop
  | [] => True
  | v :: xs => AllNumbers v ∧ AllNumbersItems xs
end

variable {p}

/-- `AllNumbersEntries` is `AllNumbers` of every value. -/
theorem allNumbersEntries_iff {es : List (String × Value)} :
    AllNumbersEntries p es ↔ ∀ e ∈ es, e.2.AllNumbers p := by
  induction es with
  | nil => simp [AllNumbersEntries]
  | cons e es ih => simp [AllNumbersEntries, ih]

/-- `AllNumbersItems` is `AllNumbers` of every item. -/
theorem allNumbersItems_iff {xs : List Value} :
    AllNumbersItems p xs ↔ ∀ v ∈ xs, v.AllNumbers p := by
  induction xs with
  | nil => simp [AllNumbersItems]
  | cons v xs ih => simp [AllNumbersItems, ih]

mutual
/-- The numbers of the document, in the order in which they stand in it. -/
def numbers : Value → List Number
  | object es => numbersEntries es
  | array xs => numbersItems xs
  | number n => [n]
  | _ => []

def numbersEntries : List (String × Value) → List Number
  | [] => []
  | (_, v) :: es => v.numbers ++ numbersEntries es

def numbersItems : List Value → List Number
  | [] => []
  | v :: xs => v.numbers ++ numbersItems xs
end

mutual
/-- `AllNumbers` speaks of the `numbers` of a document, by the way it is built. -/
theorem allNumbers_iff : (v : Value) → (v.AllNumbers p ↔ ∀ n ∈ v.numbers, p n)
  | object es => by rw [AllNumbers, numbers, allNumbersEntries_iff_numbers es]
  | array xs => by rw [AllNumbers, numbers, allNumbersItems_iff_numbers xs]
  | number n => by simp [AllNumbers, numbers]
  | string _ | boolean _ | null => by simp [AllNumbers, numbers]

theorem allNumbersEntries_iff_numbers : (es : List (String × Value)) →
    (AllNumbersEntries p es ↔ ∀ n ∈ numbersEntries es, p n)
  | [] => by simp [AllNumbersEntries, numbersEntries]
  | (_, v) :: es => by
      rw [AllNumbersEntries, numbersEntries, List.forall_mem_append, allNumbers_iff v,
        allNumbersEntries_iff_numbers es]

theorem allNumbersItems_iff_numbers : (xs : List Value) →
    (AllNumbersItems p xs ↔ ∀ n ∈ numbersItems xs, p n)
  | [] => by simp [AllNumbersItems, numbersItems]
  | v :: xs => by
      rw [AllNumbersItems, numbersItems, List.forall_mem_append, allNumbers_iff v,
        allNumbersItems_iff_numbers xs]
end

end

/-! ## containers inside each other -/

mutual
/-- How deep containers nest, the document itself included if it is one. -/
def nesting : Value → Nat
  | object es => nestingEntries es + 1
  | array xs => nestingItems xs + 1
  | _ => 0

def nestingEntries : List (String × Value) → Nat
  | [] => 0
  | (_, v) :: es => max v.nesting (nestingEntries es)

def nestingItems : List Value → Nat
  | [] => 0
  | v :: xs => max v.nesting (nestingItems xs)
end

/-- Values nest at most `n` deep if each one does. -/
theorem nestingEntries_le_iff {n : Nat} {es : List (String × Value)} :
    nestingEntries es ≤ n ↔ ∀ e ∈ es, e.2.nesting ≤ n := by
  induction es with
  | nil => simp [nestingEntries]
  | cons e es ih => rw [nestingEntries, Nat.max_le, ih, List.forall_mem_cons]

/-- Items nest at most `n` deep if each one does. -/
theorem nestingItems_le_iff {n : Nat} {xs : List Value} :
    nestingItems xs ≤ n ↔ ∀ v ∈ xs, v.nesting ≤ n := by
  induction xs with
  | nil => simp [nestingItems]
  | cons v xs ih => rw [nestingItems, Nat.max_le, ih, List.forall_mem_cons]

end Value

end Extraction.Document
