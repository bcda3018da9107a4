import Extraction.Document.Display
import Extraction.Proofs.Decimal.Digits
import Extraction.Proofs.Document.Entries
import Extraction.Proofs.Document.Value

/-!
# Extraction.Proofs.Document.Integer

Integers as numbers of a document.

An integer of up to 64 bits has one form that readers of documents choose, `Number.ofInt`.
Among the numbers that use the unsigned form only where the signed one has no room
(`Number.Reduced`) it is the only one that denotes the integer:

* `integer?_ofInt` — the form denotes the integer;
* `eq_ofInt_of_integer?` — no other reduced number does;
* `ofInt?_eq`, `ofUInt64_eq_ofInt` — it is the form that is chosen for an integer, and for an
  unsigned word;
* `display_of_integer?`, `numberChars_of_integer?` — the text of a number that denotes an
  integer is the decimal text of the integer;
* `reduced_of_ofInt?`, `reduced_ofUInt64` — the forms that are chosen are reduced.
-/

namespace Extraction.Document

namespace Number

/-- The form of an integer of up to 64 bits: signed if it has room there, else unsigned. -/
def ofInt (n : Int) : Number :=
  if n < 0x8000000000000000 then .int (Int64.ofInt n) else .nat (UInt64.ofNat n.toNat)

/-- The integer that a number denotes, if it is one. -/
def integer? : Number → Option Int
  | .int n => some n.toInt
  | .nat n => some n.toNat
  | .float _ => none

/-- The unsigned form stands only for integers that have no signed one. -/
def Reduced (x : Number) : Prop := ∀ n : UInt64, x = .nat n → 0x7FFFFFFFFFFFFFFF < n.toNat

theorem reduced_int (n : Int64) : (int n).Reduced := nofun

theorem reduced_float (x : Float) : (float x).Reduced := nofun

/-- The unsigned form is `Reduced` above the range of the signed one. -/
theorem reduced_nat {n : UInt64} (h : 0x7FFFFFFFFFFFFFFF < n.toNat) : (nat n).Reduced := by
  rintro _ ⟨⟩
  exact h

/-- `ofInt` chooses the signed form as long as it goes. -/
theorem ofInt_of_lt {n : Int} (h : n < 0x8000000000000000) : ofInt n = .int (Int64.ofInt n) :=
  if_pos h

/-- `ofInt` chooses the unsigned form where the signed one ends. -/
theorem ofInt_of_ge {n : Int} (h : 0x8000000000000000 ≤ n) :
    ofInt n = .nat (UInt64.ofNat n.toNat) :=
  if_neg (Int.not_lt.2 h)

/-! ## the words of an integer -/

/-- `Int64` keeps the integers of its range. -/
theorem toInt_ofInt_of_lt {n : Int} (hge : -0x8000000000000000 ≤ n)
    (hlt : n < 0x8000000000000000) : (Int64.ofInt n).toInt = n :=
  Int64.toInt_ofInt_of_le hge hlt

/-- `UInt64` keeps the natural numbers of its range. -/
theorem toNat_ofNat_of_lt {n : Int} (h : n < 0x10000000000000000) :
    (UInt64.ofNat n.toNat).toNat = n.toNat := by
  rw [UInt64.toNat_ofNat']
  omega

/-- Within both ranges `integer?` takes back what `ofInt` made. -/
theorem integer?_ofInt {n : Int} (hge : -0x8000000000000000 ≤ n)
    (hlt : n < 0x10000000000000000) : (ofInt n).integer? = some n := by
  rcases Int.lt_or_le n 0x8000000000000000 with h | h
  · rw [ofInt_of_lt h, integer?, toInt_ofInt_of_lt hge h]
  · rw [ofInt_of_ge h, integer?, toNat_ofNat_of_lt hlt, Int.toNat_of_nonneg (by omega)]

/-- A reduced number that denotes an integer has the form of that integer. -/
theorem eq_ofInt_of_integer? {x : Number} {n : Int} (hx : x.Reduced)
    (h : x.integer? = some n) : x = ofInt n := by
  cases x with
  | int m =>
      obtain rfl : m.toInt = n := Option.some.inj h
      rw [ofInt_of_lt (Int64.toInt_lt m), Int64.ofInt_toInt]
  | nat m =>
      obtain rfl : (m.toNat : Int) = n := Option.some.inj h
      have hm : 0x7FFFFFFFFFFFFFFF < m.toNat := hx m rfl
      rw [ofInt_of_ge (by omega), Int.toNat_natCast, UInt64.ofNat_toNat]
  | float m => cases h

/-! ## the form that is chosen -/

/-- `ofInt?` is `ofInt` within both ranges, and refuses every other integer. -/
theorem ofInt?_eq (n : Int) :
    ofInt? n =
      if -0x8000000000000000 ≤ n ∧ n < 0x10000000000000000 then some (ofInt n) else none := by
  rw [ofInt?, ofInt]
  split_ifs <;> first | rfl | omega

/-- Both ways to make a number choose the same form. -/
theorem ofUInt64_eq_ofInt (m : UInt64) : ofUInt64 m = ofInt m.toNat := by
  rw [ofUInt64]
  split
  · next h =>
    have hword : m.toInt64 = Int64.ofInt m.toNat := by
      rw [Int64.ofInt_eq_ofNat, ← UInt64.toInt64_ofNat', UInt64.ofNat_toNat]
    rw [ofInt_of_lt (by omega), hword]
  · next h => rw [ofInt_of_ge (by omega), Int.toNat_natCast, UInt64.ofNat_toNat]

/-- The form that `ofInt` chooses is `Reduced`. -/
theorem reduced_ofInt {n : Int} (hlt : n < 0x10000000000000000) : (ofInt n).Reduced := by
  rcases Int.lt_or_le n 0x8000000000000000 with h | h
  · rw [ofInt_of_lt h]
    exact reduced_int _
  · rw [ofInt_of_ge h]
    exact reduced_nat (by rw [toNat_ofNat_of_lt hlt]; omega)

theorem reduced_ofUInt64 (m : UInt64) : (ofUInt64 m).Reduced := by
  have hword := m.toNat_lt
  have hlt : (m.toNat : Int) < 0x10000000000000000 := by omega
  rw [ofUInt64_eq_ofInt]
  exact reduced_ofInt hlt

/-- The form that `ofInt?` chooses is `Reduced`. -/
theorem reduced_of_ofInt? {n : Int} {x : Number} (h : ofInt? n = some x) : x.Reduced := by
  rw [ofInt?_eq, Option.ite_none_right_eq_some] at h
  obtain ⟨⟨-, hlt⟩, h⟩ := h
  exact Option.some.inj h ▸ reduced_ofInt hlt

/-- A reduced integer is in the form that reading a written document asks for. -/
theorem canonical_of_integer? {x : Number} {n : Int} (hx : x.Reduced)
    (h : x.integer? = some n) : x.Canonical := by
  cases x with
  | int m => trivial
  | nat m => exact hx m rfl
  | float m => cases h

/-! ## the text of an integer -/

/-- A number with an integer is displayed as the decimal text of it. -/
theorem display_of_integer? {x : Number} {n : Int} (h : x.integer? = some n) :
    x.display = toString n := by
  cases x with
  | int m =>
      obtain rfl : m.toInt = n := Option.some.inj h
      exact Decimal.intText_eq_toString m.toInt
  | nat m =>
      obtain rfl : (m.toNat : Int) = n := Option.some.inj h
      exact Decimal.text_eq_toString m.toNat
  | float m => cases h

/-- A number with an integer is written in JSON as the decimal text of it. -/
theorem numberChars_of_integer? {x : Number} {n : Int} (h : x.integer? = some n) :
    Json.numberChars x = (toString n).toList := by
  rw [← display_of_integer? h]
  cases x with
  | float m => cases h
  | _ => rfl

end Number

namespace Value

/-- An object that is built from pairs holds no numbers but those in the pairs. -/
theorem allNumbers_ofPairs {p : Number → Prop} {ps : List (String × Value)}
    (h : ∀ e ∈ ps, e.2.AllNumbers p) : (ofPairs ps).AllNumbers p :=
  allNumbersEntries_iff.2 fun e he => h e (Entries.mem_of_mem_ofList he)

end Value

end Extraction.Document
