import Extraction.Decimal.Layout

/-!
# Extraction.Proofs.Decimal.Layout

The characters of a floating-point number as text: digits, the point, signs and the mark of an
exponent, whatever the layout, and apart from them only the words that the layout has for
infinity and for no number.

* `isNumeralChar_positional`, `isNumeralChar_scientific` — the two forms of a numeral;
* `isNumeralChar_chars` — any floating-point number.
-/

namespace Extraction.Decimal

/-- The characters of numerals. -/
def isNumeralChar (c : Char) : Bool := isDigit c || ['.', '-', '+', 'e'].contains c

theorem isNumeralChar_of_isDigit {c : Char} (h : isDigit c = true) : isNumeralChar c = true := by
  simp [isNumeralChar, h]

/-! ## the two forms of a numeral -/

section

variable {n : Numeral}

/-- `positional` puts nothing but characters of numerals together. -/
theorem isNumeralChar_positional (hn : ∀ d ∈ n.digits, isDigit d = true) (pointZero : Bool) :
    ∀ c ∈ n.positional pointZero, isNumeralChar c = true := by
  have hdigits : ∀ d ∈ n.digits, isNumeralChar d = true := fun d hd =>
    isNumeralChar_of_isDigit (hn d hd)
  have hzeros : ∀ k, ∀ d ∈ List.replicate k '0', isNumeralChar d = true := by
    intro k d hd
    rw [List.eq_of_mem_replicate hd]
    rfl
  have hend : ∀ c ∈ (if pointZero then ['.', '0'] else []), isNumeralChar c = true := by
    cases pointZero <;> exact List.all_eq_true.1 rfl
  simp only [Numeral.positional]
  by_cases hpoint : n.point ≤ 0
  · simp only [if_pos hpoint, List.forall_mem_append]
    exact ⟨⟨List.all_eq_true.1 rfl, hzeros _⟩, hdigits⟩
  · by_cases hwhole : n.digits.length ≤ n.point.toNat
    · simp only [if_neg hpoint, if_pos hwhole, List.forall_mem_append]
      exact ⟨⟨hdigits, hzeros _⟩, hend⟩
    · simp only [if_neg hpoint, if_neg hwhole, List.forall_mem_append]
      exact ⟨⟨fun d hd => hdigits d (List.mem_of_mem_take hd), List.all_eq_true.1 rfl⟩,
        fun d hd => hdigits d (List.mem_of_mem_drop hd)⟩

/-- `scientific` puts nothing but characters of numerals together. -/
theorem isNumeralChar_scientific (hn : ∀ d ∈ n.digits, isDigit d = true) (plusSign : Bool) :
    ∀ c ∈ n.scientific plusSign, isNumeralChar c = true := by
  have hdigits : ∀ d ∈ n.digits, isNumeralChar d = true := fun d hd =>
    isNumeralChar_of_isDigit (hn d hd)
  have hfraction : ∀ c ∈ (if (n.digits.drop 1).isEmpty then [] else '.' :: n.digits.drop 1),
      isNumeralChar c = true := by
    split
    · simp
    · exact List.forall_mem_cons.2 ⟨rfl, fun d hd => hdigits d (List.mem_of_mem_drop hd)⟩
  have hsign : ∀ c ∈ (if n.point - 1 < 0 then ['-'] else if plusSign then ['+'] else []),
      isNumeralChar c = true := by
    split
    · exact List.all_eq_true.1 rfl
    · cases plusSign <;> exact List.all_eq_true.1 rfl
  have hexponent : ∀ c ∈ digits (n.point - 1).natAbs, isNumeralChar c = true := fun c hc =>
    isNumeralChar_of_isDigit (isDigit_of_mem_digits hc)
  unfold Numeral.scientific
  simp only [List.forall_mem_append]
  exact ⟨⟨⟨⟨fun d hd => hdigits d (List.mem_of_mem_take hd), hfraction⟩,
    List.all_eq_true.1 rfl⟩, hsign⟩, hexponent⟩

end

/-! ## any floating-point number -/

/-- The text of a finite number is a numeral, and a layout adds its two words only. -/
theorem isNumeralChar_chars (l : Layout) (x : Float) :
    ∀ c ∈ l.chars x, isNumeralChar c = true ∨ c ∈ l.nan.toList ∨ c ∈ l.infinity.toList := by
  have hsign : ∀ negative : Bool, ∀ c ∈ (if negative then ['-'] else []),
      isNumeralChar c = true := by
    intro negative
    cases negative <;> exact List.all_eq_true.1 rfl
  unfold Layout.chars
  split
  · exact fun c hc => .inr (.inl hc)
  · rw [List.forall_mem_append]
    exact ⟨fun c hc => .inl (hsign _ c hc), fun c hc => .inr (.inr hc)⟩
  · next negative m _ =>
    have hdigits : ∀ d ∈ (m.shortest l.tie).digits, isDigit d = true := fun d hd =>
      Magnitude.isDigit_of_mem_digits_shortest hd
    dsimp only
    rw [List.forall_mem_append]
    refine ⟨fun c hc => .inl (hsign _ c hc), fun c hc => .inl ?_⟩
    split at hc
    · exact isNumeralChar_positional hdigits _ c hc
    · exact isNumeralChar_scientific hdigits _ c hc

end Extraction.Decimal
