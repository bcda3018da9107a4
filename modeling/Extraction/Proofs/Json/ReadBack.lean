import Extraction.Json.Reader
import Extraction.Output
import Extraction.Proofs.Document.Entries
import Extraction.Proofs.Json.Number
import Mathlib.Data.List.DropRight

/-!
# Extraction.Proofs.Json.ReadBack

A document that was written as JSON is read back as it was.

The reader takes a value from the front of a text and answers what follows it, so each
statement is about a written value with any text behind it that does not continue a number:

```
readValue fuel n (chars level v ++ rest) = (v, rest)
```

It holds for documents with distinct keys, with integers in the form that the reader chooses,
and with containers that nest at most `n` deep (`ReadsBack`).  The layouts differ by blanks
only, which the reader passes over:

* `ReadsBack.entries`, `ReadsBack.items` — what a container asks of the documents in it;
* `readValue_chars` — a written value is read back, with the same for items and entries;
* `readChars_chars`, `read_write` — the same for a whole text, with blanks at its end or none;
* `read_render` — collected values that are printed as JSON are read back.
-/

namespace Extraction.Json

open Document

/-! ## what can be read back -/

/-- The document is one that the reader answers while `n` more containers may be opened
inside each other. -/
structure ReadsBack (n : Nat) (v : Value) : Prop where
  keys : v.DistinctKeys
  numbers : v.AllNumbers Number.Canonical
  nesting : v.nesting ≤ n

/-- What `ReadsBack` asks of an object: distinct keys, and values with a level to spare. -/
theorem ReadsBack.entries {n : Nat} {es : List (String × Value)} (h : ReadsBack n (.object es)) :
    ∃ m, n = m + 1 ∧ (es.map Prod.fst).Nodup ∧ ∀ e ∈ es, ReadsBack m e.2 := by
  obtain ⟨⟨hnodup, hkeys⟩, hnumbers, hnesting⟩ := h
  obtain ⟨m, rfl⟩ := Nat.exists_eq_add_of_le' (Nat.le_trans (Nat.le_add_left 1 _) hnesting)
  have hnesting := Value.nestingEntries_le_iff.1 (Nat.le_of_succ_le_succ hnesting)
  exact ⟨m, rfl, hnodup, fun e he => ⟨Value.distinctEntries_iff.1 hkeys e he,
    Value.allNumbersEntries_iff.1 hnumbers e he, hnesting e he⟩⟩

/-- What `ReadsBack` asks of a list: items with a level to spare. -/
theorem ReadsBack.items {n : Nat} {xs : List Value} (h : ReadsBack n (.array xs)) :
    ∃ m, n = m + 1 ∧ ∀ x ∈ xs, ReadsBack m x := by
  obtain ⟨hkeys, hnumbers, hnesting⟩ := h
  obtain ⟨m, rfl⟩ := Nat.exists_eq_add_of_le' (Nat.le_trans (Nat.le_add_left 1 _) hnesting)
  have hnesting := Value.nestingItems_le_iff.1 (Nat.le_of_succ_le_succ hnesting)
  exact ⟨m, rfl, fun x hx => ⟨Value.distinctItems_iff.1 hkeys x hx,
    Value.allNumbersItems_iff.1 hnumbers x hx, hnesting x hx⟩⟩

/-! ## blanks -/

theorem skip_cons {c : Char} (h : isBlank c = false) (cs : List Char) : skip (c :: cs) = c :: cs :=
  List.dropWhile_cons_of_neg (by simp [h])

/-- `skip` drops blanks in front of a text. -/
theorem skip_append {bs : List Char} (h : ∀ b ∈ bs, isBlank b = true) (cs : List Char) :
    skip (bs ++ cs) = skip cs :=
  List.dropWhile_append_of_pos h

theorem skip_skip (cs : List Char) : skip (skip cs) = skip cs :=
  List.dropWhile_idempotent isBlank cs

/-- A line break and the indentation behind it are blanks. -/
theorem isBlank_of_mem_lineBreak {s : Style} {level : Nat} {c : Char}
    (h : c ∈ s.lineBreak level) : isBlank c = true := by
  cases s with
  | compact => cases h
  | pretty =>
      rcases List.mem_cons.1 h with rfl | h
      · rfl
      · rw [(List.mem_replicate.1 h).2]
        rfl

/-- `skip` drops a whole `lineBreak`. -/
theorem skip_lineBreak (s : Style) (level : Nat) (cs : List Char) :
    skip (s.lineBreak level ++ cs) = skip cs :=
  skip_append (fun _ h => isBlank_of_mem_lineBreak h) cs

theorem afterColon_cons (cs : List Char) : afterColon (':' :: cs) = .ok cs := rfl

/-- The colon between a key and its value is passed over, and blanks at most stand behind it. -/
theorem afterColon_colon (s : Style) (cs : List Char) :
    ∃ cs', afterColon (s.colon ++ cs) = .ok cs' ∧ skip cs' = skip cs := by
  cases s with
  | compact => exact ⟨cs, afterColon_cons cs, rfl⟩
  | pretty => exact ⟨' ' :: cs, afterColon_cons (' ' :: cs), rfl⟩

/-- `readValue` does not see the blanks in front. -/
theorem readValue_skip (fuel n : Nat) (cs : List Char) :
    readValue fuel n (skip cs) = readValue fuel n cs := by
  cases fuel with
  | zero => simp only [readValue]
  | succ fuel => simp only [readValue, skip_skip]

/-- Texts that differ by blanks in front are the same to `readValue`. -/
theorem readValue_congr {cs cs' : List Char} (h : skip cs = skip cs') (fuel n : Nat) :
    readValue fuel n cs = readValue fuel n cs' := by
  rw [← readValue_skip, h, readValue_skip]

/-- `readItems` does not see the blanks in front. -/
theorem readItems_skip (fuel n : Nat) (cs : List Char) :
    readItems fuel n (skip cs) = readItems fuel n cs := by
  cases fuel with
  | zero => simp only [readItems]
  | succ fuel => simp only [readItems, readValue_skip]

/-- `readEntries` does not see the blanks in front. -/
theorem readEntries_skip (fuel n : Nat) (cs : List Char) :
    readEntries fuel n (skip cs) = readEntries fuel n cs := by
  cases fuel with
  | zero => simp only [readEntries]
  | succ fuel => simp only [readEntries, skip_skip]

/-! ## the characters at both ends of a value -/

theorem isDigit_ne {c d : Char} (hc : Decimal.isDigit c = true) (hd : Decimal.isDigit d = false) :
    c ≠ d := by
  rintro rfl
  rw [hc] at hd
  cases hd

theorem isBlank_of_isDigit {c : Char} (hc : Decimal.isDigit c = true) : isBlank c = false := by
  have hne : ∀ d, Decimal.isDigit d = false → c ≠ d := fun _ => isDigit_ne hc
  simp [isBlank, hne ' ' rfl, hne '\n' rfl, hne '\t' rfl, hne '\r' rfl]

theorem endsNumber_nil : EndsNumber [] := by simp [EndsNumber]

/-- The characters that stand behind a value satisfy `EndsNumber`. -/
theorem endsNumber_cons {c : Char} (hc : isBlank c = true ∨ c = ',' ∨ c = ']' ∨ c = '\x7d')
    (cs : List Char) : EndsNumber (c :: cs) := by
  intro d hd
  obtain rfl : c = d := Option.some.inj hd
  simp only [isBlank, Bool.or_eq_true, decide_eq_true_eq] at hc
  rcases hc with (((rfl | rfl) | rfl) | rfl) | rfl | rfl | rfl <;> decide

/-- A line break, and the closing bracket behind it, do not continue a number. -/
theorem endsNumber_lineBreak {c : Char} (hc : c = ']' ∨ c = '\x7d') (s : Style) (level : Nat)
    (cs : List Char) : EndsNumber (s.lineBreak level ++ c :: cs) := by
  cases s with
  | compact => exact endsNumber_cons (.inr (.inr hc)) cs
  | pretty => exact endsNumber_cons (.inl rfl) _

/-- A written value begins with a character that is neither a blank nor a closing bracket. -/
theorem exists_chars_eq_cons {n : Nat} {v : Value} (hv : ReadsBack n v) (s : Style) (level : Nat) :
    ∃ c cs, s.chars level v = c :: cs ∧ isBlank c = false ∧ c ≠ ']' := by
  cases v with
  | object es =>
      cases es with
      | nil => exact ⟨_, _, by rw [Style.chars], rfl, by decide⟩
      | cons e es => exact ⟨_, _, by rw [Style.chars]; rfl, rfl, by decide⟩
  | array xs =>
      cases xs with
      | nil => exact ⟨_, _, by rw [Style.chars], rfl, by decide⟩
      | cons x xs => exact ⟨_, _, by rw [Style.chars]; rfl, rfl, by decide⟩
  | string t => exact ⟨_, _, by rw [Style.chars, quoted]; rfl, rfl, by decide⟩
  | number x =>
      obtain ⟨negative, m, hx, -⟩ := readNumber_numberChars hv.numbers endsNumber_nil
      obtain ⟨c, cs, hm⟩ := List.exists_cons_of_ne_nil (Decimal.digits_ne_nil m)
      have hc : Decimal.isDigit c = true := Decimal.isDigit_of_mem_digits (n := m) (by simp [hm])
      rw [Style.chars, hx, hm]
      cases negative with
      | true => exact ⟨_, _, rfl, rfl, by decide⟩
      | false => exact ⟨_, _, rfl, isBlank_of_isDigit hc, isDigit_ne hc rfl⟩
  | boolean b => cases b <;> exact ⟨_, _, by rw [Style.chars], rfl, by decide⟩
  | null => exact ⟨_, _, by rw [Style.chars], rfl, by decide⟩

/-- Behind its line break a first item begins with a character that does not close the list. -/
theorem exists_skip_items_eq_cons {n : Nat} {x : Value} (hx : ReadsBack n x) (s : Style)
    (level : Nat) (xs : List Value) (rest : List Char) :
    ∃ c cs, skip (s.items level (x :: xs) ++ rest) = c :: cs ∧ c ≠ ']' := by
  obtain ⟨c, cs, hc, hblank, hne⟩ := exists_chars_eq_cons hx s level
  cases xs with
  | nil =>
      rw [Style.items, List.append_assoc, skip_lineBreak, hc]
      exact ⟨c, _, skip_cons hblank _, hne⟩
  | cons y ys =>
      rw [Style.items, List.append_assoc, List.append_assoc, skip_lineBreak, hc]
      exact ⟨c, _, skip_cons hblank _, hne⟩

/-- Behind its line break a first entry begins with the mark of its key. -/
theorem exists_skip_entries_eq_cons (s : Style) (level : Nat) (e : String × Value)
    (es : List (String × Value)) (rest : List Char) :
    ∃ cs, skip (s.entries level (e :: es) ++ rest) = '"' :: cs := by
  obtain ⟨k, v⟩ := e
  cases es with
  | nil =>
      rw [Style.entries]
      simp only [List.append_assoc, skip_lineBreak]
      exact ⟨_, skip_cons rfl _⟩
  | cons d ds =>
      rw [Style.entries]
      simp only [List.append_assoc, skip_lineBreak]
      exact ⟨_, skip_cons rfl _⟩

/-! ## one value -/

/-- `readValue` takes back a text from its `quoted` form. -/
theorem readValue_string (fuel n : Nat) (t : String) (rest : List Char) :
    readValue (fuel + 1) n (quoted t ++ rest) = .ok (.string t, rest) := by
  have hquoted : quoted t ++ rest = '"' :: (body t.toList ++ '"' :: rest) := by simp [quoted]
  rw [hquoted, readValue, skip_cons rfl]
  simp [readBody_body, Except.map]

/-- At a digit `readValue` reads a number. -/
theorem readValue_digit {c : Char} (hc : Decimal.isDigit c = true) (fuel n : Nat)
    (cs : List Char) :
    readValue (fuel + 1) n (c :: cs) =
      (readNumber false (c :: cs)).map fun r => (.number r.1, r.2) := by
  have hne : ∀ d, Decimal.isDigit d = false → c ≠ d := fun _ => isDigit_ne hc
  rw [readValue, skip_cons (isBlank_of_isDigit hc)]
  simp [hne '"' rfl, hne '[' rfl, hne '\x7b' rfl, hne 't' rfl, hne 'f' rfl, hne 'n' rfl,
    hne '-' rfl]

/-- Behind a minus `readValue` reads a negative number. -/
theorem readValue_minus (fuel n : Nat) (cs : List Char) :
    readValue (fuel + 1) n ('-' :: cs) =
      (readNumber true cs).map fun r => (.number r.1, r.2) := by
  rw [readValue, skip_cons rfl]
  simp

/-- `readValue` takes back a number in the form that is written, if it is `Canonical`. -/
theorem readValue_number {x : Number} (hx : x.Canonical) (fuel n : Nat) {rest : List Char}
    (hrest : EndsNumber rest) :
    readValue (fuel + 1) n (numberChars x ++ rest) = .ok (.number x, rest) := by
  obtain ⟨negative, m, hchars, hread⟩ := readNumber_numberChars hx hrest
  rw [hchars]
  cases negative with
  | true =>
      rw [if_pos rfl, List.cons_append, List.nil_append, List.cons_append, readValue_minus, hread]
      rfl
  | false =>
      obtain ⟨c, cs, hm⟩ := List.exists_cons_of_ne_nil (Decimal.digits_ne_nil m)
      have hc : Decimal.isDigit c = true := Decimal.isDigit_of_mem_digits (n := m) (by simp [hm])
      rw [hm] at hread ⊢
      rw [if_neg (by decide), List.nil_append, List.cons_append, readValue_digit hc,
        ← List.cons_append, hread]
      rfl

/-- A list that is not closed at once has items. -/
theorem readValue_bracket {c : Char} {cs cs' : List Char} (hcs : skip cs = c :: cs')
    (hc : c ≠ ']') (fuel n : Nat) :
    readValue (fuel + 1) (n + 1) ('[' :: cs) =
      (readItems fuel n cs).map fun r => (.array r.1, r.2) := by
  rw [readValue, skip_cons rfl]
  simp only [hcs, Char.reduceEq, ↓reduceIte]
  rw [← readItems_skip fuel n cs, hcs]
  split
  · next heq => exact absurd (List.cons.inj heq).1 hc
  · rfl

/-- An object that is not closed at once has entries. -/
theorem readValue_brace {cs cs' : List Char} (hcs : skip cs = '"' :: cs') (fuel n : Nat) :
    readValue (fuel + 1) (n + 1) ('\x7b' :: cs) =
      (readEntries fuel n cs).map fun r => (.ofPairs r.1, r.2) := by
  rw [readValue, skip_cons rfl]
  simp only [hcs, Char.reduceEq, ↓reduceIte]
  rw [← readEntries_skip fuel n cs, hcs]
  rfl

/-! ## one item, one entry -/

/-- A value with the bracket behind it is the last item. -/
theorem readItems_last {fuel n : Nat} {cs close rest : List Char} {x : Value}
    (hx : readValue fuel n cs = .ok (x, close)) (hclose : skip close = ']' :: rest)
    (s : Style) (level : Nat) :
    readItems (fuel + 1) n (s.lineBreak level ++ cs) = .ok ([x], rest) := by
  rw [← readValue_congr (skip_lineBreak s level cs)] at hx
  simp only [readItems, hx, bind, Except.bind, hclose]

/-- Behind a comma `readItems` goes on with the next item. -/
theorem readItems_cons {fuel n : Nat} {cs rest : List Char} {x : Value}
    (hx : readValue fuel n cs = .ok (x, ',' :: rest)) (s : Style) (level : Nat) :
    readItems (fuel + 1) n (s.lineBreak level ++ cs) =
      (readItems fuel n rest).map fun r => (x :: r.1, r.2) := by
  rw [← readValue_congr (skip_lineBreak s level cs)] at hx
  simp only [readItems, hx, bind, Except.bind, skip_cons (c := ',') rfl]

/-- The text of an entry up to its value. -/
def Style.key (s : Style) (level : Nat) (k : String) : List Char :=
  s.lineBreak level ++ quoted k ++ s.colon

/-- The blanks around a key and behind its colon make no difference. -/
theorem readEntries_key (fuel n : Nat) (s : Style) (level : Nat) (k : String) (cs : List Char) :
    readEntries (fuel + 1) n (s.key level k ++ cs) =
      readEntries (fuel + 1) n ('"' :: (body k.toList ++ '"' :: ':' :: cs)) := by
  obtain ⟨cs', hcolon, hcs⟩ := afterColon_colon s cs
  have hkey : s.key level k ++ cs =
      s.lineBreak level ++ '"' :: (body k.toList ++ '"' :: (s.colon ++ cs)) := by
    simp [Style.key, quoted]
  have hskip : skip (s.key level k ++ cs) = '"' :: (body k.toList ++ '"' :: (s.colon ++ cs)) := by
    rw [hkey, skip_lineBreak, skip_cons rfl]
  simp only [readEntries, hskip, skip_cons (c := '"') rfl, readBody_body, bind, Except.bind,
    hcolon, afterColon_cons, readValue_congr hcs]

/-- A value with the brace behind it is that of the last entry. -/
theorem readEntries_last {fuel n : Nat} {cs close rest : List Char} {v : Value}
    (hv : readValue fuel n cs = .ok (v, close)) (hclose : skip close = '\x7d' :: rest)
    (s : Style) (level : Nat) (k : String) :
    readEntries (fuel + 1) n (s.key level k ++ cs) = .ok ([(k, v)], rest) := by
  rw [readEntries_key]
  simp only [readEntries, skip_cons (c := '"') rfl, readBody_body, bind, Except.bind,
    afterColon_cons, hv, hclose, String.ofList_toList]

/-- Behind a comma `readEntries` goes on with the next entry. -/
theorem readEntries_cons {fuel n : Nat} {cs rest : List Char} {v : Value}
    (hv : readValue fuel n cs = .ok (v, ',' :: rest)) (s : Style) (level : Nat) (k : String) :
    readEntries (fuel + 1) n (s.key level k ++ cs) =
      (readEntries fuel n rest).map fun r => ((k, v) :: r.1, r.2) := by
  rw [readEntries_key]
  simp only [readEntries, skip_cons (c := '"') rfl, readBody_body, bind, Except.bind,
    afterColon_cons, hv, skip_cons (c := ',') rfl, String.ofList_toList]

/-! ## documents -/

/- The induction is on the document.  The fuel pays for the characters of the text: every
call that a value, an item or an entry takes has a character of its own, and the first call
for items or entries is paid by the bracket before them.  What closes a list or an object is
any text whose first character behind blanks is the closing bracket, so that the statements
hold for both layouts. -/
mutual
/-- A written value is read back, whatever follows that does not continue a number. -/
theorem readValue_chars : (v : Value) → {n : Nat} → ReadsBack n v → (s : Style) →
    (level fuel : Nat) → {rest : List Char} → (s.chars level v).length ≤ fuel →
    EndsNumber rest → readValue fuel n (s.chars level v ++ rest) = .ok (v, rest)
  | .object [], n, hv, s, level, fuel + 1, rest, hfuel, hrest => by
      obtain ⟨m, rfl, -, -⟩ := hv.entries
      rfl
  | .object (e :: es), n, hv, s, level, fuel + 1, rest, hfuel, hrest => by
      obtain ⟨m, rfl, hnodup, hes⟩ := hv.entries
      have hchars : s.chars level (.object (e :: es)) ++ rest =
          '\x7b' :: (s.entries (level + 1) (e :: es) ++ (s.lineBreak level ++ '\x7d' :: rest)) := by
        simp [Style.chars]
      obtain ⟨cs, hopen⟩ := exists_skip_entries_eq_cons s (level + 1) e es
        (s.lineBreak level ++ '\x7d' :: rest)
      rw [Style.chars, List.length_append, List.length_append, List.length_cons,
        List.length_singleton] at hfuel
      obtain ⟨fuel, rfl⟩ := Nat.exists_eq_add_of_le' (show 1 ≤ fuel by omega)
      have hread := readEntries_entries e es hes s (level + 1) fuel (by omega)
        (endsNumber_lineBreak (.inr rfl) s level rest) (skip_lineBreak s level ('\x7d' :: rest))
      rw [hchars, readValue_brace hopen, hread]
      simp only [Except.map, Value.ofPairs, Entries.ofList_of_nodup hnodup]
  | .array [], n, hv, s, level, fuel + 1, rest, hfuel, hrest => by
      obtain ⟨m, rfl, -⟩ := hv.items
      rfl
  | .array (x :: xs), n, hv, s, level, fuel + 1, rest, hfuel, hrest => by
      obtain ⟨m, rfl, hxs⟩ := hv.items
      have hchars : s.chars level (.array (x :: xs)) ++ rest =
          '[' :: (s.items (level + 1) (x :: xs) ++ (s.lineBreak level ++ ']' :: rest)) := by
        simp [Style.chars]
      obtain ⟨c, cs, hopen, hc⟩ := exists_skip_items_eq_cons (hxs x (by simp)) s (level + 1) xs
        (s.lineBreak level ++ ']' :: rest)
      rw [Style.chars, List.length_append, List.length_append, List.length_cons,
        List.length_singleton] at hfuel
      obtain ⟨fuel, rfl⟩ := Nat.exists_eq_add_of_le' (show 1 ≤ fuel by omega)
      have hread := readItems_items x xs hxs s (level + 1) fuel (by omega)
        (endsNumber_lineBreak (.inl rfl) s level rest) (skip_lineBreak s level (']' :: rest))
      rw [hchars, readValue_bracket hopen hc, hread]
      rfl
  | .string t, n, hv, s, level, fuel + 1, rest, hfuel, hrest => by
      rw [Style.chars, readValue_string]
  | .number x, n, hv, s, level, fuel + 1, rest, hfuel, hrest => by
      rw [Style.chars, readValue_number hv.numbers fuel n hrest]
  | .boolean b, n, hv, s, level, fuel + 1, rest, hfuel, hrest => by
      cases b <;> rfl
  | .null, n, hv, s, level, fuel + 1, rest, hfuel, hrest => rfl
  | v, n, hv, s, level, 0, rest, hfuel, hrest => by
      -- Every value has a first character, which the fuel would have to pay for.
      obtain ⟨c, cs, hc, -⟩ := exists_chars_eq_cons hv s level
      simp [hc] at hfuel
termination_by v => sizeOf v

/-- Items are read back up to the bracket that closes the list. -/
theorem readItems_items : (x : Value) → (xs : List Value) → {n : Nat} →
    (∀ v ∈ x :: xs, ReadsBack n v) → (s : Style) → (level fuel : Nat) →
    {close rest : List Char} → (s.items level (x :: xs)).length ≤ fuel →
    EndsNumber close → skip close = ']' :: rest →
    readItems (fuel + 1) n (s.items level (x :: xs) ++ close) = .ok (x :: xs, rest)
  | x, [], n, hxs, s, level, fuel, close, rest, hfuel, hends, hclose => by
      rw [Style.items, List.length_append] at hfuel
      have hx := readValue_chars x (hxs x (by simp)) s level fuel (by omega) hends
      rw [Style.items, List.append_assoc, readItems_last hx hclose]
  | x, y :: ys, n, hxs, s, level, fuel, close, rest, hfuel, hends, hclose => by
      rw [Style.items, List.length_append, List.length_append, List.length_cons] at hfuel
      obtain ⟨fuel, rfl⟩ := Nat.exists_eq_add_of_le' (show 1 ≤ fuel by omega)
      have hx := readValue_chars x (hxs x (by simp)) s level (fuel + 1) (by omega)
        (endsNumber_cons (.inr (.inl rfl)) (s.items level (y :: ys) ++ close))
      have hys := readItems_items y ys (fun v hv => hxs v (by simp [hv])) s level fuel
        (by omega) hends hclose
      rw [Style.items, List.append_assoc, List.append_assoc, List.cons_append, readItems_cons hx,
        hys]
      rfl
termination_by x xs => sizeOf (x :: xs)

/-- Entries are read back up to the brace that closes the object. -/
theorem readEntries_entries : (e : String × Value) → (es : List (String × Value)) → {n : Nat} →
    (∀ d ∈ e :: es, ReadsBack n d.2) → (s : Style) → (level fuel : Nat) →
    {close rest : List Char} → (s.entries level (e :: es)).length ≤ fuel →
    EndsNumber close → skip close = '\x7d' :: rest →
    readEntries (fuel + 1) n (s.entries level (e :: es) ++ close) = .ok (e :: es, rest)
  | (k, v), [], n, hes, s, level, fuel, close, rest, hfuel, hends, hclose => by
      rw [Style.entries, List.length_append] at hfuel
      have hv := readValue_chars v (hes (k, v) (by simp)) s level fuel (by omega) hends
      rw [Style.entries, List.append_assoc, ← Style.key, readEntries_last hv hclose]
  | (k, v), e :: es, n, hes, s, level, fuel, close, rest, hfuel, hends, hclose => by
      rw [Style.entries, List.length_append, List.length_append, List.length_cons] at hfuel
      obtain ⟨fuel, rfl⟩ := Nat.exists_eq_add_of_le' (show 1 ≤ fuel by omega)
      have hv := readValue_chars v (hes (k, v) (by simp)) s level (fuel + 1) (by omega)
        (endsNumber_cons (.inr (.inl rfl)) (s.entries level (e :: es) ++ close))
      have htail := readEntries_entries e es (fun d hd => hes d (by simp [hd])) s level fuel
        (by omega) hends hclose
      rw [Style.entries, ← Style.key, List.append_assoc, List.append_assoc, List.cons_append,
        readEntries_cons hv, htail]
      rfl
termination_by e es => sizeOf (e :: es)
end

/-- A written document with nothing but blanks behind it is read back. -/
theorem readChars_chars {v : Value} (hv : ReadsBack maxNesting v) (s : Style) {bs : List Char}
    (hbs : ∀ b ∈ bs, isBlank b = true) : readChars (s.chars 0 v ++ bs) = .ok v := by
  have hends : EndsNumber bs := by
    cases bs with
    | nil => exact endsNumber_nil
    | cons b bs => exact endsNumber_cons (.inl (hbs b (by simp))) bs
  have hread := readValue_chars v hv s 0 (2 * (s.chars 0 v ++ bs).length + 2)
    (by rw [List.length_append]; omega) hends
  have hskip : skip bs = [] := by
    have := skip_append hbs []
    rwa [List.append_nil] at this
  simp only [readChars, hread, bind, Except.bind, hskip]
  rfl

/-- What `write` makes of a document is what `read` takes for it. -/
theorem read_write {v : Value} (hv : ReadsBack maxNesting v) (s : Style) :
    read (write s v) = .ok v := by
  have hread := readChars_chars hv s (List.forall_mem_nil fun b => isBlank b = true)
  rwa [read, write, String.toList_ofList, ← List.append_nil (s.chars 0 v)]

end Extraction.Json

namespace Extraction

open Document Json

/-- `endWithLineFeed` adds blanks at most. -/
theorem toList_endWithLineFeed (t : String) :
    ∃ bs, (endWithLineFeed t).toList = t.toList ++ bs ∧ ∀ b ∈ bs, isBlank b = true := by
  rw [endWithLineFeed]
  split
  · exact ⟨[], by simp, by simp⟩
  · exact ⟨['\n'], by simp, by simp [isBlank]⟩

/-- **JSON output reads back**: collected values without floating-point numbers, whose
unsigned integers are above the signed range and whose containers nest at most 127 deep, the
result itself counted, are read from their printed text as they were, keys and items in their
order, whichever layout they were printed in.  Keys are distinct in a result and in every
object that is taken from a document. -/
theorem read_render {results : Transition.Results}
    (hkeys : ∀ e ∈ results.entries, e.2.DistinctKeys)
    (hnumbers : ∀ e ∈ results.entries, e.2.AllNumbers Number.Canonical)
    (hnesting : results.toValue.nesting ≤ 127) (pretty : Bool) :
    Json.read (render .json pretty results) = .ok (.object results.entries) := by
  have hreads : ReadsBack maxNesting (.object results.entries) :=
    ⟨⟨results.nodup, Value.distinctEntries_iff.2 hkeys⟩,
      Value.allNumbersEntries_iff.2 hnumbers, hnesting⟩
  obtain ⟨bs, htext, hbs⟩ := toList_endWithLineFeed
    (write (if pretty then .pretty else .compact) (.object results.entries))
  rw [Json.read, render, Transition.Results.toValue, htext, write, String.toList_ofList]
  exact readChars_chars hreads _ hbs

/-- Collected values with marks, line feeds and control characters in texts and keys, integers
at the ends of both forms, and containers without content. -/
def assorted : Transition.Results where
  entries :=
    [("a\"\n", .array [.string "\\\x01\t/é", .object [], .number (.int Int64.minValue)]),
      ("", .object [("b", .array []), ("c", .number (.nat 0x8000000000000000)),
        ("d", .array [.array [.null], .boolean true, .number (.int 0)])])]
  nodup := by decide

/-- The `assorted` values are read back from both layouts. -/
theorem read_render_assorted :
    (∀ e ∈ assorted.entries, e.2.DistinctKeys) ∧
    (∀ e ∈ assorted.entries, e.2.AllNumbers Number.Canonical) ∧
    assorted.toValue.nesting ≤ 127 ∧
    Json.read (render .json true assorted) = .ok (.object assorted.entries) ∧
    Json.read (render .json false assorted) = .ok (.object assorted.entries) := by
  have hkeys : ∀ e ∈ assorted.entries, e.2.DistinctKeys := by
    simp [assorted, Value.DistinctKeys, Value.DistinctEntries, Value.DistinctItems, Entries.keys]
  have hnumbers : ∀ e ∈ assorted.entries, e.2.AllNumbers Number.Canonical := by
    simp [assorted, Value.AllNumbers, Value.AllNumbersEntries, Value.AllNumbersItems,
      Number.Canonical]
  have hnesting : assorted.toValue.nesting ≤ 127 := by decide
  exact ⟨hkeys, hnumbers, hnesting, read_render hkeys hnumbers hnesting true,
    read_render hkeys hnumbers hnesting false⟩

end Extraction
