import Extraction.Output
import Extraction.Proofs.Decimal.Layout

/-!
# Extraction.Proofs.Json.Line

JSON text in the compact layout is one line.

Line breaks are among the characters below the space, and compact text has none of these at
all: a string writes them as escapes, numbers and words have none, and the layout puts nothing
but brackets, commas and colons between them.

* `IsLine` — texts without characters below the space;
* `isLine_quoted`, `isLine_numberChars` — strings and numbers;
* `isLine_chars` — a document, with the same for entries and items;
* `render_json_compact` — collected values that are printed on one line.
-/

namespace Extraction.Json

open Document

/-- No character of the text is below the space. -/
def IsLine (cs : List Char) : Prop := ∀ c ∈ cs, 32 ≤ c.toNat

@[simp] theorem isLine_nil : IsLine [] := by simp [IsLine]

@[simp] theorem isLine_cons {c : Char} {cs : List Char} :
    IsLine (c :: cs) ↔ 32 ≤ c.toNat ∧ IsLine cs := by
  simp [IsLine]

@[simp] theorem isLine_append {cs ds : List Char} : IsLine (cs ++ ds) ↔ IsLine cs ∧ IsLine ds := by
  simp only [IsLine, List.forall_mem_append]

/-- On a line stands no character below the space. -/
theorem IsLine.not_mem {cs : List Char} (h : IsLine cs) {c : Char} (hc : c.toNat < 32) :
    c ∉ cs := by
  intro hmem
  have hle := h c hmem
  omega

/-! ## strings -/

/-- The digits of an escape are a line. -/
theorem isLine_padded (width n : Nat) : IsLine (Text.Hex.padded Text.Hex.digit width n) := by
  have hdigit : ∀ m, 32 ≤ (Text.Hex.digit m).toNat := by
    intro m
    have hall : ∀ r : Fin 16, 32 ≤ (Text.Hex.digit r.val).toNat := by decide
    have hmod : Text.Hex.digit m = Text.Hex.digit (m % 16) := by simp [Text.Hex.digit]
    rw [hmod]
    exact hall ⟨m % 16, Nat.mod_lt _ (by decide)⟩
  induction width generalizing n with
  | zero => exact isLine_nil
  | succ width ih =>
      rw [Text.Hex.padded, isLine_append]
      exact ⟨ih (n / 16), isLine_cons.2 ⟨hdigit n, isLine_nil⟩⟩

/-- Whatever the character, its written form stays on the line. -/
theorem isLine_escape (c : Char) : IsLine (escape c) := by
  have hmark : IsLine ['\\', 'u'] := by simp
  unfold escape
  split; · simp
  split; · simp
  split; · simp
  split; · simp
  split; · simp
  split; · simp
  split; · simp
  split
  · exact isLine_append.2 ⟨hmark, isLine_padded 4 c.toNat⟩
  · next hc => simpa using hc

/-- `quoted` escapes every character that `IsLine` does not admit. -/
theorem isLine_quoted (s : String) : IsLine (quoted s) := by
  have hbody : IsLine (body s.toList) := by
    intro c hc
    obtain ⟨d, -, hd⟩ := List.mem_flatMap.1 hc
    exact isLine_escape d c hd
  simp [quoted, hbody]

/-! ## numbers -/

/-- The characters of numerals are not below the space. -/
theorem le_toNat_of_isNumeralChar {c : Char} (h : Decimal.isNumeralChar c = true) :
    32 ≤ c.toNat := by
  simp only [Decimal.isNumeralChar, Bool.or_eq_true, List.contains_iff_mem] at h
  cases h with
  | inl hdigit =>
      simp only [Decimal.isDigit, Bool.and_eq_true, decide_eq_true_eq, Char.le_def,
        UInt32.le_iff_toNat_le] at hdigit
      have hzero : ('0' : Char).val.toNat = 48 := rfl
      have hval : c.toNat = c.val.toNat := rfl
      omega
  | inr hmark =>
      have hmarks : ∀ d ∈ ['.', '-', '+', 'e'], 32 ≤ d.toNat := by simp
      exact hmarks c hmark

theorem isLine_digits (n : Nat) : IsLine (Decimal.digits n) := fun _ hc =>
  le_toNat_of_isNumeralChar (Decimal.isNumeralChar_of_isDigit (Decimal.isDigit_of_mem_digits hc))

/-- The shortest decimal of a float is a line, whichever layout it has. -/
theorem isLine_floatChars (x : Float) : IsLine (floatChars x) := by
  have hnull : ∀ c ∈ "null".toList, 32 ≤ c.toNat := by simp
  unfold floatChars
  split
  · intro c hc
    obtain hnumeral | hword | hword := Decimal.isNumeralChar_chars floatLayout x c hc
    · exact le_toNat_of_isNumeralChar hnumeral
    · exact hnull c hword
    · exact hnull c hword
  · exact hnull

/-- A number of any form is written on a line. -/
theorem isLine_numberChars (n : Number) : IsLine (numberChars n) := by
  cases n with
  | int n =>
      rw [numberChars, Decimal.intText]
      split
      · simp [isLine_digits]
      · simp [Decimal.text, isLine_digits]
  | nat n => simp [numberChars, Decimal.text, isLine_digits]
  | float x => exact isLine_floatChars x

/-! ## documents -/

mutual
/-- The compact layout breaks no line, by induction on the document. -/
theorem isLine_chars (level : Nat) : (v : Value) → IsLine (Style.compact.chars level v)
  | .object [] => by simp [Style.chars]
  | .object (e :: es) => by
      simp [Style.chars, Style.lineBreak, isLine_entries (level + 1) (e :: es)]
  | .array [] => by simp [Style.chars]
  | .array (x :: xs) => by
      simp [Style.chars, Style.lineBreak, isLine_items (level + 1) (x :: xs)]
  | .string t => by
      rw [Style.chars]
      exact isLine_quoted t
  | .number n => by
      rw [Style.chars]
      exact isLine_numberChars n
  | .boolean true => by simp [Style.chars]
  | .boolean false => by simp [Style.chars]
  | .null => by simp [Style.chars]

/-- The same for the entries of an object. -/
theorem isLine_entries (level : Nat) :
    (es : List (String × Value)) → IsLine (Style.compact.entries level es)
  | [] => by simp [Style.entries]
  | [(k, v)] => by
      simp [Style.entries, Style.lineBreak, Style.colon, isLine_quoted k, isLine_chars level v]
  | (k, v) :: e :: es => by
      simp [Style.entries, Style.lineBreak, Style.colon, isLine_quoted k, isLine_chars level v,
        isLine_entries level (e :: es)]

/-- The same for the items of a list. -/
theorem isLine_items (level : Nat) :
    (xs : List Value) → IsLine (Style.compact.items level xs)
  | [] => by simp [Style.items]
  | [v] => by simp [Style.items, Style.lineBreak, isLine_chars level v]
  | v :: w :: vs => by
      simp [Style.items, Style.lineBreak, isLine_chars level v, isLine_items level (w :: vs)]
end

/-- The whole compact text is a line. -/
theorem isLine_write (v : Value) : IsLine (write .compact v).toList := by
  rw [write, String.toList_ofList]
  exact isLine_chars 0 v

end Extraction.Json

namespace Extraction

open Json (IsLine)

/-- A line gets a line feed at its end. -/
theorem toList_endWithLineFeed_of_isLine {t : String} (h : IsLine t.toList) :
    (endWithLineFeed t).toList = t.toList ++ ['\n'] := by
  have hlast : t.toList.getLast? ≠ some '\n' := fun hlast =>
    h.not_mem (by decide) (List.mem_of_getLast? hlast)
  rw [endWithLineFeed, if_neg hlast, String.toList_append]
  rfl

/-- **Compact JSON is one line**: collected values, whatever their keys and values are, are
printed as their JSON text and a line feed behind it, and there is no line feed and no carriage
return before that one.  So the first line of the output is the whole text. -/
theorem render_json_compact (results : Transition.Results) :
    (render .json false results).toList =
      (Json.write .compact results.toValue).toList ++ ['\n'] ∧
    '\n' ∉ (Json.write .compact results.toValue).toList ∧
    '\r' ∉ (Json.write .compact results.toValue).toList ∧
    (render .json false results).toList.takeWhile (· ≠ '\n') =
      (Json.write .compact results.toValue).toList := by
  have hline : IsLine (Json.write .compact results.toValue).toList := Json.isLine_write _
  have hfeed : '\n' ∉ (Json.write .compact results.toValue).toList := hline.not_mem (by decide)
  have htext : (render .json false results).toList =
      (Json.write .compact results.toValue).toList ++ ['\n'] :=
    toList_endWithLineFeed_of_isLine hline
  refine ⟨htext, hfeed, hline.not_mem (by decide), ?_⟩
  rw [htext, List.takeWhile_append_of_pos]
  · simp
  · intro c hc
    exact decide_eq_true (ne_of_mem_of_not_mem hc hfeed)

end Extraction
