import Extraction.Decimal.Digits
import Mathlib.Data.List.Induction

/-!
# Extraction.Proofs.Decimal.Digits

Decimal numerals are the usual ones.

* `exists_digits_eq_cons` — a positive number is not written with a zero at its front;
* `digits_eq_toDigits`, `intText_eq_toString` — digits and texts are those of the core
  library;
* `toList_toString` — the characters of an integer's text;
* `digits_eq_iff` — the digits of a number are the one numeral that denotes it.
-/

namespace Extraction.Decimal

/-- A positive number is not written with a zero at its front. -/
theorem exists_digits_eq_cons {n : Nat} (h : 0 < n) :
    ∃ c cs, digits n = c :: cs ∧ c ≠ '0' := by
  induction n using Nat.strongRecOn with
  | _ n ih =>
      rcases Nat.lt_or_ge n 10 with hn | hn
      · refine ⟨digit n, [], digits_of_lt hn, fun hzero => ?_⟩
        have hvalue := digitValue_digit hn
        rw [hzero] at hvalue
        exact absurd hvalue (by simpa [digitValue] using Nat.ne_of_lt h)
      · obtain ⟨c, cs, hcs, hc⟩ := ih (n / 10) (by omega) (by omega)
        exact ⟨c, cs ++ [digit n], by rw [digits_of_ge hn, hcs]; rfl, hc⟩

/-- The value of a digit is below ten. -/
theorem digitValue_lt_of_isDigit {c : Char} (h : isDigit c = true) : digitValue c < 10 := by
  simp only [isDigit, Bool.and_eq_true, decide_eq_true_eq] at h
  have hle : c.toNat ≤ '9'.toNat := UInt32.le_iff_toNat_le.1 (Char.le_def.1 h.2)
  have hnine : '9'.toNat = 57 := rfl
  rw [digitValue]
  omega

/-- Digits do not begin with a zero and another character. -/
theorem digits_ne_zero_cons (n : Nat) (c : Char) (cs : List Char) :
    digits n ≠ '0' :: c :: cs := by
  intro h
  rcases Nat.eq_zero_or_pos n with rfl | hn
  · rw [digits_of_lt (by decide)] at h
    cases h
  · obtain ⟨d, ds, hds, hd⟩ := exists_digits_eq_cons hn
    rw [hds] at h
    exact hd (List.cons.inj h).1

/-- `digit` is the `Nat.digitChar` of the library below ten. -/
theorem digit_eq_digitChar {n : Nat} (h : n < 10) : digit n = n.digitChar := by
  have : ∀ m : Fin 10, digit m = Nat.digitChar m := by decide
  exact this ⟨n, h⟩

/-- `digits` are those that `Nat.toDigits` has for base ten. -/
theorem digits_eq_toDigits (n : Nat) : digits n = Nat.toDigits 10 n := by
  induction n using Nat.strongRecOn with
  | _ n ih =>
      rcases Nat.lt_or_ge n 10 with hn | hn
      · rw [digits_of_lt hn, Nat.toDigits_of_lt_base hn, digit_eq_digitChar hn]
      · rw [digits_of_ge hn, Nat.toDigits_of_base_le (by decide) hn, ih (n / 10) (by omega),
          ← digit_mod, digit_eq_digitChar (Nat.mod_lt n (by decide))]

/-- `text` is what `toString` makes of a natural number. -/
theorem text_eq_toString (n : Nat) : text n = toString n := by
  rw [text, digits_eq_toDigits]
  rfl

/-- `intText` is what `toString` makes of an integer. -/
theorem intText_eq_toString (n : Int) : intText n = toString n := by
  rw [intText]
  cases n with
  | ofNat n =>
      rw [if_neg (by simp)]
      exact text_eq_toString n
  | negSucc n =>
      have htext : toString (Int.negSucc n) = "-" ++ toString (n + 1) := rfl
      rw [if_pos (Int.negSucc_lt_zero n), htext, ← text_eq_toString, text, ← String.toList_inj]
      simp

/-- The text of an integer is its digits, behind a dash if it is negative. -/
theorem toList_toString (n : Int) :
    (toString n).toList = if n < 0 then '-' :: digits n.natAbs else digits n.natAbs := by
  rw [← intText_eq_toString, intText]
  split
  · exact String.toList_ofList
  · exact String.toList_ofList

/-! ## numerals -/

/-- A numeral: one digit or more, with a zero in front only where it is alone. -/
structure IsNumeral (cs : List Char) : Prop where
  ne_nil : cs ≠ []
  isDigit_of_mem : ∀ c ∈ cs, isDigit c = true
  eq_of_head? : cs.head? = some '0' → cs = ['0']

/-- The digits of a number are a numeral: there are some, and no zero too many. -/
theorem isNumeral_digits (n : Nat) : IsNumeral (digits n) where
  ne_nil := digits_ne_nil n
  isDigit_of_mem _ := isDigit_of_mem_digits
  eq_of_head? h := by
    obtain ⟨cs, hcs⟩ := List.head?_eq_some_iff.1 h
    cases cs with
    | nil => exact hcs
    | cons c cs => exact absurd hcs (digits_ne_zero_cons n c cs)

/-- Without its last digit, a numeral of several digits is one that has no zero in front. -/
theorem IsNumeral.of_append_singleton {cs : List Char} {c : Char} (h : IsNumeral (cs ++ [c]))
    (hcs : cs ≠ []) : IsNumeral cs ∧ cs.head? ≠ some '0' := by
  have hfront : cs.head? ≠ some '0' := fun hhead => by
    have hwhole : cs ++ [c] = ['0'] := h.eq_of_head? (by rw [List.head?_append, hhead]; rfl)
    have hlength := congrArg List.length hwhole
    have hpos := List.length_pos_iff.2 hcs
    simp at hlength
    contradiction
  have hdigits : ∀ d ∈ cs, isDigit d = true :=
    fun d hd => h.isDigit_of_mem d (List.mem_append_left [c] hd)
  exact ⟨⟨hcs, hdigits, fun hhead => absurd hhead hfront⟩, hfront⟩

/-- A numeral is made of the digits of the number that it denotes. -/
theorem IsNumeral.digits_value {cs : List Char} (h : IsNumeral cs) : digits (value cs) = cs := by
  induction cs using List.reverseRec with
  | nil => exact absurd rfl h.ne_nil
  | append_singleton cs c ih =>
      have hc : isDigit c = true := h.isDigit_of_mem c (by simp)
      have hlt : digitValue c < 10 := digitValue_lt_of_isDigit hc
      rw [value_append_singleton]
      by_cases hcs : cs = []
      · subst hcs
        have hvalue : 10 * value [] + digitValue c = digitValue c := by simp [value]
        rw [hvalue, digits_of_lt hlt, digit_digitValue hc, List.nil_append]
      · obtain ⟨hnumeral, hfront⟩ := h.of_append_singleton hcs
        have hdigits : digits (value cs) = cs := ih hnumeral
        have hpos : value cs ≠ 0 := fun hzero => by
          rw [hzero, digits_of_lt (by decide)] at hdigits
          exact hfront (hdigits ▸ rfl)
        have hdiv : (10 * value cs + digitValue c) / 10 = value cs := by omega
        have hmod : (10 * value cs + digitValue c) % 10 = digitValue c := by omega
        rw [digits_of_ge (by omega), hdiv, hdigits, ← digit_mod, hmod, digit_digitValue hc]

/-- `digits n` is the one numeral of value `n`. -/
theorem digits_eq_iff {n : Nat} {cs : List Char} : digits n = cs ↔ IsNumeral cs ∧ value cs = n := by
  constructor
  · rintro rfl
    exact ⟨isNumeral_digits n, value_digits n⟩
  · rintro ⟨hnumeral, rfl⟩
    exact hnumeral.digits_value

end Extraction.Decimal
