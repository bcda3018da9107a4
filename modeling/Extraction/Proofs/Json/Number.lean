import Extraction.Json.Number
import Extraction.Json.Writer
import Extraction.Proofs.Decimal.Digits
import Extraction.Proofs.Document.Value

/-!
# Extraction.Proofs.Json.Number

Integers are read as they are written.

The digits of a written integer are cut off from what follows them, which must not continue
a number.  They denote a value within 64 bits, so the reader does not approximate it, and it
chooses the form by the size as the writer's number has it:

* `readWhole_digits` — the digits of a number, without a zero at their front, are its whole
  part;
* `readNumber_digits` — without a fraction and an exponent the digits decide;
* `readNumber_numberChars` — what the reader makes of a written number.
-/

namespace Extraction.Json

open Document

/-- No character at the front of the text continues a number. -/
def EndsNumber (rest : List Char) : Prop :=
  ∀ c ∈ rest.head?, Decimal.isDigit c = false ∧ c ≠ '.' ∧ c ≠ 'e' ∧ c ≠ 'E'

/-! ## the whole part -/

/-- `readWhole` reads the digits of a number up to their end. -/
theorem readWhole_digits (n : Nat) {rest : List Char} (hrest : EndsNumber rest) :
    readWhole (Decimal.digits n ++ rest) = .ok (Decimal.digits n, rest) := by
  rcases Nat.eq_zero_or_pos n with rfl | hn
  · rw [Decimal.digits_of_lt (by decide)]
    cases rest with
    | nil => rfl
    | cons c cs =>
        have hc : Decimal.isDigit c = false := (hrest c rfl).1
        simp [readWhole, Decimal.digit, hc]
  · obtain ⟨c, cs, hcs, hc⟩ := Decimal.exists_digits_eq_cons hn
    have hdigit : Decimal.isDigit c = true :=
      Decimal.isDigit_of_mem_digits (n := n) (by simp [hcs])
    have hspan : Decimal.spanDigits (Decimal.digits n ++ rest) = (Decimal.digits n, rest) :=
      Decimal.spanDigits_append (fun d hd => Decimal.isDigit_of_mem_digits hd)
        fun d hd => (hrest d hd).1
    rw [hcs] at hspan ⊢
    rw [List.cons_append, readWhole, if_pos hdigit, ← List.cons_append, hspan]
    exact fun h => hc h

/-! ## what does not follow -/

/-- Under `EndsNumber` no fraction follows. -/
theorem readFraction_of_endsNumber {rest : List Char} (hrest : EndsNumber rest) :
    readFraction rest = .ok (none, rest) := by
  cases rest with
  | nil => rfl
  | cons c cs =>
      have hc : c ≠ '.' := (hrest c rfl).2.1
      rw [readFraction]
      exact fun _ h => hc (List.cons.inj h).1

/-- Under `EndsNumber` no exponent follows. -/
theorem readExponent_of_endsNumber {rest : List Char} (hrest : EndsNumber rest) :
    readExponent rest = .ok (none, rest) := by
  cases rest with
  | nil => rfl
  | cons c cs =>
      obtain ⟨-, -, he, hE⟩ := hrest c rfl
      simp [readExponent, he, hE]

/-- Digits alone are read by `readNumber` as a numeral without fraction and exponent. -/
theorem readNumber_digits (negative : Bool) (n : Nat) {rest : List Char}
    (hrest : EndsNumber rest) :
    readNumber negative (Decimal.digits n ++ rest) =
      (Numeral.number ⟨negative, Decimal.digits n, none, none⟩).map fun x => (x, rest) := by
  simp only [readNumber, readWhole_digits n hrest, readFraction_of_endsNumber hrest,
    readExponent_of_endsNumber hrest, bind, Except.bind]
  cases Numeral.number ⟨negative, Decimal.digits n, none, none⟩ <;> rfl

/-! ## the value -/

/-- Digits behind a minus are a signed integer, down to the least one. -/
theorem number_digits_of_pos {n : Nat} (hpos : 0 < n) (hn : n ≤ 0x8000000000000000) :
    Numeral.number ⟨true, Decimal.digits n, none, none⟩ =
      .ok (.int (Int64.ofInt (-(n : Int)))) := by
  have hmax : ¬ maxSignificand < n := by rw [maxSignificand]; omega
  simp [Numeral.number, Decimal.value_digits, hmax, Nat.ne_of_gt hpos, Nat.not_lt.2 hn]

/-- Digits without a minus are an integer in the form of `Number.ofUInt64`. -/
theorem number_digits {n : Nat} (hn : n ≤ maxSignificand) :
    Numeral.number ⟨false, Decimal.digits n, none, none⟩ =
      .ok (Number.ofUInt64 (UInt64.ofNat n)) := by
  simp [Numeral.number, Decimal.value_digits, Nat.not_lt.2 hn]

/-- An integer that fits the signed form is given it by `Number.ofUInt64`. -/
theorem ofUInt64_of_nonneg {n : Int64} (h : 0 ≤ n.toInt) :
    Number.ofUInt64 (UInt64.ofNat n.toInt.natAbs) = .int n := by
  have hlt := Int64.toInt_lt n
  have hsmall : (UInt64.ofNat n.toInt.natAbs).toNat < 0x8000000000000000 := by
    rw [UInt64.toNat_ofNat']
    omega
  rw [Number.ofUInt64, if_pos hsmall, UInt64.toInt64_ofNat', ← Int64.ofInt_eq_ofNat,
    Int.natAbs_of_nonneg h, Int64.ofInt_toInt]

/-- The sign that the reader takes off the front of a number, and what it reads behind it. -/
theorem readNumber_numberChars {n : Number} (hn : n.Canonical) {rest : List Char}
    (hrest : EndsNumber rest) :
    ∃ negative m, numberChars n = (if negative then ['-'] else []) ++ Decimal.digits m ∧
      readNumber negative (Decimal.digits m ++ rest) = .ok (n, rest) := by
  cases n with
  | int n =>
      rw [numberChars, Decimal.intText]
      -- the least integer has no positive counterpart in the signed range
      by_cases hneg : n.toInt < 0
      · have hge := Int64.le_toInt n
        have habs : -(n.toInt.natAbs : Int) = n.toInt := by omega
        refine ⟨true, n.toInt.natAbs, by simp [hneg], ?_⟩
        rw [readNumber_digits true _ hrest, number_digits_of_pos (by omega) (by omega), habs,
          Int64.ofInt_toInt]
        rfl
      · have hlt := Int64.toInt_lt n
        refine ⟨false, n.toInt.natAbs, by simp [hneg, Decimal.text], ?_⟩
        rw [readNumber_digits false _ hrest, number_digits (by rw [maxSignificand]; omega),
          ofUInt64_of_nonneg (by omega)]
        rfl
  | nat n =>
      have hlt := UInt64.toNat_lt n
      have hbig : ¬ n.toNat < 0x8000000000000000 := by
        have : 0x7FFFFFFFFFFFFFFF < n.toNat := hn
        omega
      refine ⟨false, n.toNat, by simp [numberChars, Decimal.text], ?_⟩
      rw [readNumber_digits false _ hrest, number_digits (by rw [maxSignificand]; omega),
        UInt64.ofNat_toNat, Number.ofUInt64, if_neg hbig]
      rfl
  | float x => exact hn.elim

end Extraction.Json
