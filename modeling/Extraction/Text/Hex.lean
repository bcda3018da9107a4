/-!
# Extraction.Text.Hex

Hexadecimal digits: their values, and numbers written with a fixed count of them.

* `value_digit` — the value of the digit written for a number below sixteen is that number.
-/

namespace Extraction.Text.Hex

/-- The value of a hexadecimal digit of either case. -/
def value? (c : Char) : Option Nat :=
  if '0' ≤ c ∧ c ≤ '9' then some (c.toNat - 48)
  else if 'a' ≤ c ∧ c ≤ 'f' then some (c.toNat - 87)
  else if 'A' ≤ c ∧ c ≤ 'F' then some (c.toNat - 55)
  else none

def isDigit (c : Char) : Bool := (value? c).isSome

/-- The lower-case digit of a value below sixteen; larger values are taken modulo sixteen. -/
def digit (n : Nat) : Char :=
  let r := n % 16
  if r < 10 then Char.ofNat (48 + r) else Char.ofNat (87 + r)

/-- The upper-case digit of a value below sixteen; larger values are taken modulo sixteen. -/
def upperDigit (n : Nat) : Char :=
  let r := n % 16
  if r < 10 then Char.ofNat (48 + r) else Char.ofNat (55 + r)

/-- The last `width` hexadecimal digits of a number, padded with zeros on the left. -/
def padded (digitOf : Nat → Char) : Nat → Nat → List Char
  | 0, _ => []
  | width + 1, n => padded digitOf width (n / 16) ++ [digitOf n]

/-- The hexadecimal digits of a number without leading zeros. -/
def digits (n : Nat) : List Char :=
  if n < 16 then [digit n] else digits (n / 16) ++ [digit n]

/-- The number that a run of hexadecimal digits denotes, if all of them are digits. -/
def number? (cs : List Char) : Option Nat :=
  cs.foldl (fun acc c => do let n ← acc; let v ← value? c; pure (16 * n + v)) (some 0)

/-- Exactly `width` hexadecimal digits at the front of a text, with what follows them. -/
def take? (width : Nat) (cs : List Char) : Option (Nat × List Char) :=
  if (cs.take width).length = width then
    (number? (cs.take width)).map fun n => (n, cs.drop width)
  else none

/-- `value?` takes back what `digit` made. -/
theorem value_digit {n : Nat} (h : n < 16) : value? (digit n) = some n := by
  have : ∀ m : Fin 16, value? (digit m) = some m.val := by decide
  exact this ⟨n, h⟩

/-- `value?` takes back what `upperDigit` made. -/
theorem value_upperDigit {n : Nat} (h : n < 16) : value? (upperDigit n) = some n := by
  have : ∀ m : Fin 16, value? (upperDigit m) = some m.val := by decide
  exact this ⟨n, h⟩

@[simp] theorem length_padded (digitOf : Nat → Char) (width n : Nat) :
    (padded digitOf width n).length = width := by
  induction width generalizing n with
  | zero => rfl
  | succ w ih => simp [padded, ih]

end Extraction.Text.Hex
