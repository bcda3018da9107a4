/-!
# Extraction.Decimal.Digits

Canonical decimal numerals: the digits of a natural number, and the number that
digits denote.

* `value_digits` — the digits of a number denote that number;
* `digits_injective` — two numbers with the same digits are equal.
-/

namespace Extraction.Decimal

def isDigit (c : Char) : Bool := '0' ≤ c && c ≤ '9'

/-- The digit of a value below ten; larger values are taken modulo ten. -/
def digit (n : Nat) : Char := Char.ofNat (48 + n % 10)

/-- The value of a digit. -/
def digitValue (c : Char) : Nat := c.toNat - 48

/-- The decimal digits of a number, most significant first, without leading zeros. -/
def digits (n : Nat) : List Char :=
  if n < 10 then [digit n] else digits (n / 10) ++ [digit n]

/-- The number that digits denote, most significant first. -/
def value (cs : List Char) : Nat := cs.foldl (fun n c => 10 * n + digitValue c) 0

/-- The decimal text of a number. -/
def text (n : Nat) : String := String.ofList (digits n)

/-- The decimal text of an integer, with a minus sign before a negative one. -/
def intText (n : Int) : String :=
  if n < 0 then String.ofList ('-' :: digits n.natAbs) else text n.natAbs

/-! ## digits and values -/

/-- `digitValue` takes back what `digit` made. -/
theorem digitValue_digit {n : Nat} (h : n < 10) : digitValue (digit n) = n := by
  have : ∀ m : Fin 10, digitValue (digit m) = m.val := by decide
  exact this ⟨n, h⟩

theorem digit_mod (n : Nat) : digit (n % 10) = digit n := by simp [digit]

theorem isDigit_digit (n : Nat) : isDigit (digit n) = true := by
  have : ∀ m : Fin 10, isDigit (digit m) = true := by decide
  rw [← digit_mod]
  exact this ⟨n % 10, Nat.mod_lt _ (by decide)⟩

/-- `digit` takes back what `digitValue` made of a digit. -/
theorem digit_digitValue {c : Char} (h : isDigit c = true) : digit (digitValue c) = c := by
  simp only [isDigit, Bool.and_eq_true, decide_eq_true_eq, Char.le_def, UInt32.le_iff_toNat_le] at h
  have h0 : ('0' : Char).val.toNat = 48 := rfl
  have h9 : ('9' : Char).val.toNat = 57 := rfl
  rw [h0, h9] at h
  have hc : c.toNat = c.val.toNat := rfl
  have hlt : (c.toNat - 48) % 10 = c.toNat - 48 := Nat.mod_eq_of_lt (by omega)
  have hsum : 48 + (c.toNat - 48) = c.toNat := by omega
  simp only [digit, digitValue]
  rw [hlt, hsum]
  exact Char.ofNat_toNat c

/-- A number below ten has one digit. -/
theorem digits_of_lt {n : Nat} (h : n < 10) : digits n = [digit n] := by
  rw [digits]; simp [h]

/-- Any other number has one digit more than its tenth. -/
theorem digits_of_ge {n : Nat} (h : 10 ≤ n) : digits n = digits (n / 10) ++ [digit n] := by
  rw [digits]; simp [Nat.not_lt.2 h]

theorem digits_ne_nil (n : Nat) : digits n ≠ [] := by
  rw [digits]; split <;> simp

theorem isDigit_of_mem_digits {n : Nat} {c : Char} (h : c ∈ digits n) : isDigit c = true := by
  induction n using Nat.strongRecOn with
  | _ n ih =>
    rcases Nat.lt_or_ge n 10 with hn | hn
    · rw [digits_of_lt hn] at h
      simp at h; subst h; exact isDigit_digit n
    · rw [digits_of_ge hn] at h
      rcases List.mem_append.1 h with h | h
      · exact ih (n / 10) (by omega) h
      · simp at h; subst h; exact isDigit_digit n

/-- A further digit makes the `value` ten times as large, and adds its own. -/
theorem value_append_singleton (cs : List Char) (c : Char) :
    value (cs ++ [c]) = 10 * value cs + digitValue c := by
  simp [value]

/-- `value` takes back what `digits` made. -/
theorem value_digits (n : Nat) : value (digits n) = n := by
  induction n using Nat.strongRecOn with
  | _ n ih =>
    rcases Nat.lt_or_ge n 10 with hn | hn
    · rw [digits_of_lt hn]; simp [value, digitValue_digit hn]
    · rw [digits_of_ge hn, value_append_singleton, ih (n / 10) (by omega), ← digit_mod,
        digitValue_digit (Nat.mod_lt _ (by decide))]
      omega

/-- Numbers with the same `digits` are the same. -/
theorem digits_injective {m n : Nat} (h : digits m = digits n) : m = n := by
  rw [← value_digits m, ← value_digits n, h]

/-- Numbers with the same `text` are the same. -/
theorem text_injective {m n : Nat} (h : text m = text n) : m = n := by
  apply digits_injective
  have := congrArg String.toList h
  simpa [text] using this

end Extraction.Decimal
