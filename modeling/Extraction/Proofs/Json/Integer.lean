import Extraction.Proofs.Postcondition
import Extraction.Proofs.Document.Integer
import Extraction.Proofs.Json.ReadBack

/-!
# Extraction.Proofs.Json.Integer

Integers in JSON texts.

A numeral with neither point nor exponent, and within 64 bits, gets the form of its integer;
every other one is a floating-point number.  So the numbers of a document that was read are
reduced, by induction on the fuel of the reader:

* `read_toString` — the decimal text of an integer is read as the form of the integer;
* `readsReduced` — what is read of a value, of items and of entries has reduced numbers;
* `reduced_of_read` — the same for a whole text.
-/

namespace Extraction.Json

open Document

/-! ## the text of an integer -/

/-- `write` gives an integer its decimal text. -/
theorem write_ofInt {n : Int} (hge : -0x8000000000000000 ≤ n) (hlt : n < 0x10000000000000000)
    (s : Style) : write s (.number (.ofInt n)) = toString n := by
  rw [write, Style.chars, Number.numberChars_of_integer? (Number.integer?_ofInt hge hlt),
    String.ofList_toList]

/-- `read` takes the decimal text of an integer for the form of `Number.ofInt`. -/
theorem read_toString {n : Int} (hge : -0x8000000000000000 ≤ n)
    (hlt : n < 0x10000000000000000) : read (toString n) = .ok (.number (.ofInt n)) := by
  have hreads : ReadsBack maxNesting (.number (.ofInt n)) :=
    ⟨trivial, Number.canonical_of_integer? (Number.reduced_ofInt hlt)
      (Number.integer?_ofInt hge hlt), Nat.zero_le _⟩
  rw [← write_ofInt hge hlt .compact, read_write hreads]

/-! ## the numbers of a text -/

/-- `approximate` answers floating-point numbers only. -/
theorem ensures_approximate (n : Numeral) : Ensures n.approximate Number.Reduced := by
  simp only [Numeral.approximate]
  split
  · exact ensures_error _
  · exact ensures_ok (Number.reduced_float _)

/-- Whichever form `number` chooses, it is `Reduced`. -/
theorem ensures_number (n : Numeral) : Ensures n.number Number.Reduced := by
  simp only [Numeral.number]
  split
  · exact ensures_approximate n
  · split
    · split
      · exact ensures_ok (Number.reduced_float _)
      · exact ensures_ok (Number.reduced_int _)
    · exact ensures_ok (Number.reduced_ofUInt64 _)

theorem ensures_readNumber (negative : Bool) (cs : List Char) :
    Ensures (readNumber negative cs) fun r => r.1.Reduced := by
  refine ensures_bind_of_forall fun _ => ensures_bind_of_forall fun _ =>
    ensures_bind_of_forall fun _ => ensures_bind (ensures_number _) fun n hn => ?_
  exact ensures_ok hn

/-- `readWord` answers the value that it was given. -/
theorem ensures_readWord {word : String} {v : Value} (hv : v.AllNumbers Number.Reduced)
    (cs : List Char) : Ensures (readWord word v cs) fun r => r.1.AllNumbers Number.Reduced := by
  rw [readWord]
  split
  · exact ensures_ok hv
  · exact ensures_error _

/-- Whatever is read with the fuel has reduced numbers. -/
structure ReadsReduced (fuel : Nat) : Prop where
  value (n : Nat) (cs : List Char) :
    Ensures (readValue fuel n cs) fun r => r.1.AllNumbers Number.Reduced
  items (n : Nat) (cs : List Char) :
    Ensures (readItems fuel n cs) fun r => ∀ v ∈ r.1, v.AllNumbers Number.Reduced
  entries (n : Nat) (cs : List Char) :
    Ensures (readEntries fuel n cs) fun r => ∀ e ∈ r.1, e.2.AllNumbers Number.Reduced

namespace ReadsReduced

/-- Without fuel nothing is answered. -/
theorem zero : ReadsReduced 0 where
  value _ _ := by rw [readValue]; exact ensures_error _
  items _ _ := by rw [readItems]; exact ensures_error _
  entries _ _ := by rw [readEntries]; exact ensures_error _

variable {fuel : Nat}

/-- One more step of `readValue`: a number has a reduced form, a container what it holds. -/
theorem value_succ (h : ReadsReduced fuel) (n : Nat) (cs : List Char) :
    Ensures (readValue (fuel + 1) n cs) fun r => r.1.AllNumbers Number.Reduced := by
  rw [readValue]
  split
  · exact ensures_error _
  -- In order: a text, an array, an object, the three words, a number below zero and another.
  · split_ifs
    · exact ensures_map fun _ _ => trivial
    · split
      · exact ensures_error _
      · split
        · exact ensures_ok trivial
        · exact ensures_map fun r hr => Value.allNumbersItems_iff.2 (h.items _ _ r hr)
    · split
      · exact ensures_error _
      · split
        · exact ensures_ok trivial
        · exact ensures_map fun r hr => Value.allNumbers_ofPairs (h.entries _ _ r hr)
    · exact ensures_readWord (by trivial) _
    · exact ensures_readWord (by trivial) _
    · exact ensures_readWord (by trivial) _
    · exact ensures_map (ensures_readNumber _ _)
    · exact ensures_map (ensures_readNumber _ _)

/-- One more step of `readItems`: an item, and the items behind it. -/
theorem items_succ (h : ReadsReduced fuel) (n : Nat) (cs : List Char) :
    Ensures (readItems (fuel + 1) n cs) fun r => ∀ v ∈ r.1, v.AllNumbers Number.Reduced := by
  rw [readItems]
  refine ensures_bind (h.value n cs) fun r hr => ?_
  dsimp only
  split
  · exact ensures_map fun s hs => List.forall_mem_cons.2 ⟨hr, h.items _ _ s hs⟩
  · exact ensures_ok (List.forall_mem_singleton.2 hr)
  · exact ensures_error _

/-- One more step of `readEntries`: an entry, and the entries behind it. -/
theorem entries_succ (h : ReadsReduced fuel) (n : Nat) (cs : List Char) :
    Ensures (readEntries (fuel + 1) n cs) fun r => ∀ e ∈ r.1, e.2.AllNumbers Number.Reduced := by
  rw [readEntries]
  split
  · refine ensures_bind_of_forall fun key => ensures_bind_of_forall fun cs' =>
      ensures_bind (h.value n _) fun r hr => ?_
    dsimp only
    split
    · exact ensures_map fun s hs => List.forall_mem_cons.2 ⟨hr, h.entries _ _ s hs⟩
    · exact ensures_ok (List.forall_mem_singleton.2 hr)
    · exact ensures_error _
  · exact ensures_error _

end ReadsReduced

/-- Items and entries are read with less fuel than the container they are in, and so is what
follows the first of them. -/
theorem readsReduced (fuel : Nat) : ReadsReduced fuel := by
  induction fuel with
  | zero => exact .zero
  | succ fuel ih => exact ⟨ih.value_succ, ih.items_succ, ih.entries_succ⟩

/-- The numbers of a document that was read are reduced. -/
theorem reduced_of_read {text : String} {v : Value} (h : read text = .ok v) :
    ∀ x ∈ v.numbers, x.Reduced := by
  have hread : Ensures (readChars text.toList) fun v => v.AllNumbers Number.Reduced := by
    refine ensures_bind ((readsReduced _).value _ _) fun r hr => ?_
    dsimp only
    split
    · exact ensures_ok hr
    · exact ensures_error _
  exact (Value.allNumbers_iff v).1 (hread v h)

end Extraction.Json
