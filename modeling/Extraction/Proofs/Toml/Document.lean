import Extraction.Proofs.Document.Entries
import Extraction.Proofs.Toml.Text
import Extraction.Toml.Reader

/-!
# Extraction.Proofs.Toml.Document

A document that is written one entry to a line is read back entry by entry.

```
key = text
```

The keys are distinct and need no marks, and the text of a value is one that the reader takes
for this value up to the end of the line (`Entry.WellFormed`).  A line is read into the table of
the lines before it, so the run over a document is an induction on its entries:

* `readKey?_append`, `readDotted?_append` — the key of a line;
* `readEntry?_chars` — one line, whatever lines follow;
* `readLines?_flatMap` — all lines;
* `read?_flatMap` — the document;
* `wellFormed_ofString`, `wellFormed_ofBoolean` — entries that fulfil the condition.
-/

namespace Extraction.Toml

open Document (Entries)

/-! ## keys -/

/-- A key that needs no marks. -/
structure IsBare (key : String) : Prop where
  ne_nil : key.toList ≠ []
  isKeyChar : ∀ c ∈ key.toList, isKeyChar c = true

instance (key : String) : Decidable (IsBare key) :=
  decidable_of_iff (key.toList ≠ [] ∧ key.toList.all isKeyChar = true)
    ⟨fun h => ⟨h.1, List.all_eq_true.1 h.2⟩, fun h => ⟨h.1, List.all_eq_true.2 h.2⟩⟩

/-- A character of keys is none of those that are not. -/
theorem ne_of_isKeyChar {c d : Char} (hc : isKeyChar c = true) (hd : isKeyChar d = false) :
    c ≠ d := by
  intro heq
  rw [heq, hd] at hc
  cases hc

theorem skip_cons {c : Char} (h : isBlank c = false) (cs : List Char) : skip (c :: cs) = c :: cs :=
  List.dropWhile_cons_of_neg (by simp [h])

/-- `skip` stops at a key. -/
theorem skip_cons_of_isKeyChar {c : Char} (hc : isKeyChar c = true) (cs : List Char) :
    skip (c :: cs) = c :: cs := by
  have hspace : c ≠ ' ' := ne_of_isKeyChar hc rfl
  have htab : c ≠ '\t' := ne_of_isKeyChar hc rfl
  exact skip_cons (by simp [isBlank, hspace, htab]) cs

section

variable {key : String} (h : IsBare key)

include h

/-- A bare key has a first character. -/
theorem IsBare.exists_eq_cons : ∃ c cs, key.toList = c :: cs ∧ Toml.isKeyChar c = true := by
  obtain ⟨c, cs, hcons⟩ := List.exists_cons_of_ne_nil h.ne_nil
  exact ⟨c, cs, hcons, h.isKeyChar c (by simp [hcons])⟩

/-- `readKey?` reads a bare key up to the blank behind it. -/
theorem readKey?_append (rest : List Char) :
    readKey? (key.toList ++ ' ' :: rest) = some (key, ' ' :: rest) := by
  have htake : (key.toList ++ ' ' :: rest).takeWhile isKeyChar = key.toList := by
    rw [List.takeWhile_append_of_pos h.isKeyChar]
    simp [isKeyChar]
  have hdrop : (key.toList ++ ' ' :: rest).dropWhile isKeyChar = ' ' :: rest := by
    rw [List.dropWhile_append_of_pos h.isKeyChar]
    rfl
  obtain ⟨c, cs, hcons, hc⟩ := h.exists_eq_cons
  have hmark : ∀ {d : Char} {more : List Char}, isKeyChar d = false →
      key.toList ++ ' ' :: rest ≠ d :: more := by
    intro d more hd heq
    rw [hcons] at heq
    exact ne_of_isKeyChar hc hd (List.cons.inj heq).1
  rw [readKey?, htake, hdrop]
  · simp [h.ne_nil, String.ofList_toList]
  · exact fun _ => hmark rfl
  · exact fun _ => hmark rfl

/-- A key without marks, with a blank and an equals sign behind it, is a whole dotted key. -/
theorem readDotted?_append (rest : List Char) :
    readDotted? (key.toList ++ ' ' :: '=' :: rest) = some ([], key, '=' :: rest) := by
  have hskip : skip (key.toList ++ ' ' :: '=' :: rest) = key.toList ++ ' ' :: '=' :: rest := by
    obtain ⟨c, cs, hcons, hc⟩ := h.exists_eq_cons
    rw [hcons, List.cons_append, skip_cons_of_isKeyChar hc]
  have hequals : skip (' ' :: '=' :: rest) = '=' :: rest := rfl
  have hkeys : readKeys? maxKeys (key.toList ++ ' ' :: '=' :: rest) =
      some ([key], '=' :: rest) := by
    rw [maxKeys, readKeys?, hskip, readKey?_append h]
    simp [hequals]
  rw [readDotted?, hkeys]
  rfl

end

/-! ## entries -/

/-- An entry: its key, the text of its value, and the value. -/
structure Entry where
  key : String
  text : List Char
  value : Value

/-- The line of an entry. -/
def Entry.chars (e : Entry) : List Char :=
  e.key.toList ++ " = ".toList ++ e.text ++ ['\n']

/-- The key needs no marks, and the text is read as the value, whatever lines follow. -/
structure Entry.WellFormed (e : Entry) : Prop where
  bare : IsBare e.key
  reads : ∀ fuel rest, readValue? (fuel + 1) maxNesting (skip (e.text ++ '\n' :: rest)) =
    some (e.value, '\n' :: rest)

/-- The entry of a text. -/
def Entry.ofString (key s : String) : Entry := ⟨key, writeString s.toList, .string s⟩

/-- The entry of a truth value. -/
def Entry.ofBoolean (key : String) (b : Bool) : Entry :=
  ⟨key, if b then "true".toList else "false".toList, .boolean b⟩

/-- An entry with a text is `WellFormed`, in whichever kind of marks the text is put. -/
theorem wellFormed_ofString {key : String} (h : IsBare key) (s : String) :
    (Entry.ofString key s).WellFormed := by
  refine ⟨h, fun fuel rest => ?_⟩
  have hread : readString? (writeString s.toList ++ '\n' :: rest) =
      some (s.toList, '\n' :: rest) := readString?_writeString s.toList (by simp) (by simp)
  obtain ⟨c, cs, hcons, hc⟩ : ∃ c cs, writeString s.toList ++ '\n' :: rest = c :: cs ∧
      (c = '"' ∨ c = '\'') := by
    unfold writeString
    split
    · exact ⟨_, _, rfl, .inl rfl⟩
    · exact ⟨_, _, rfl, .inr rfl⟩
    · exact ⟨_, _, rfl, .inl rfl⟩
    · exact ⟨_, _, rfl, .inr rfl⟩
  have hblank : isBlank c = false := by
    cases hc with
    | inl hbasic => rw [hbasic]; rfl
    | inr hliteral => rw [hliteral]; rfl
  show readValue? (fuel + 1) maxNesting (skip (writeString s.toList ++ '\n' :: rest)) =
    some (.string s, '\n' :: rest)
  rw [hcons] at hread ⊢
  rw [skip_cons hblank, readValue?.eq_def]
  simp [hc, hread, String.ofList_toList]

/-- An entry with a truth value is `WellFormed`. -/
theorem wellFormed_ofBoolean {key : String} (h : IsBare key) (b : Bool) :
    (Entry.ofBoolean key b).WellFormed := by
  refine ⟨h, fun fuel rest => ?_⟩
  cases b <;> rfl

/-! ## lines -/

theorem endLine?_feed (rest : List Char) : endLine? ('\n' :: rest) = some rest := rfl

/-- A line adds its entry to the table of the document. -/
theorem readEntry?_chars {e : Entry} (h : e.WellFormed) {t : Table}
    (hnew : e.key ∉ Entries.keys t) (fuel : Nat) (rest : List Char) :
    readEntry? (fuel + 1) ⟨t, []⟩ (e.chars ++ rest) =
      some (⟨t ++ [(e.key, .value e.value)], []⟩, rest) := by
  have hchars : e.chars ++ rest =
      e.key.toList ++ ' ' :: '=' :: ' ' :: (e.text ++ '\n' :: rest) := by
    simp [Entry.chars]
  have habsent : Entries.get? e.key t = none := Entries.get?_eq_none_iff.2 hnew
  have hskip : skip (' ' :: (e.text ++ '\n' :: rest)) = skip (e.text ++ '\n' :: rest) := rfl
  rw [hchars, readEntry?, readDotted?_append h.bare]
  simp [after?, hskip, h.reads, endLine?_feed, Table.change?, Table.add?, habsent,
    Entries.insert_of_not_mem hnew]

/-- A line begins with a character of its key. -/
theorem Entry.WellFormed.exists_chars_eq_cons {e : Entry} (h : e.WellFormed) :
    ∃ c cs, e.chars = c :: cs ∧ isKeyChar c = true := by
  obtain ⟨c, cs, hcons, hc⟩ := h.bare.exists_eq_cons
  refine ⟨c, cs ++ " = ".toList ++ e.text ++ ['\n'], ?_, hc⟩
  rw [Entry.chars, hcons]
  rfl

/-- `readLines?` takes the line of an entry and adds the entry to the table. -/
theorem readLines?_chars {e : Entry} (h : e.WellFormed) {t : Table}
    (hnew : e.key ∉ Entries.keys t) (fuel : Nat) (rest : List Char) :
    readLines? (fuel + 2) ⟨t, []⟩ (e.chars ++ rest) =
      readLines? (fuel + 1) ⟨t ++ [(e.key, .value e.value)], []⟩ rest := by
  have hentry := readEntry?_chars h hnew fuel rest
  obtain ⟨c, cs, hchars, hc⟩ := h.exists_chars_eq_cons
  have hbracket : c ≠ '[' := ne_of_isKeyChar hc rfl
  have hhash : c ≠ '#' := ne_of_isKeyChar hc rfl
  have hfeed : c ≠ '\n' := ne_of_isKeyChar hc rfl
  have hreturn : c ≠ '\r' := ne_of_isKeyChar hc rfl
  rw [hchars, List.cons_append] at hentry ⊢
  rw [readLines?, skip_cons_of_isKeyChar hc]
  simp [hhash, hfeed, hreturn, hentry]

/-- The lines of a document are read one after the other into the table of those before. -/
theorem readLines?_flatMap {es : List Entry} (h : ∀ e ∈ es, e.WellFormed) {t : Table}
    (hkeys : (Entries.keys t ++ es.map Entry.key).Nodup) {fuel : Nat} (hfuel : es.length < fuel) :
    readLines? fuel ⟨t, []⟩ (es.flatMap Entry.chars) =
      some ⟨t ++ es.map fun e => (e.key, .value e.value), []⟩ := by
  induction es generalizing t fuel with
  | nil =>
      obtain ⟨fuel, rfl⟩ := Nat.exists_eq_add_of_lt hfuel
      simp [readLines?, skip]
  | cons e es ih =>
      obtain ⟨fuel, rfl⟩ : ∃ n, fuel = n + 2 := ⟨fuel - 2, by simp at hfuel; omega⟩
      obtain ⟨he, hes⟩ := List.forall_mem_cons.1 h
      have hnew : e.key ∉ Entries.keys t := by
        have hdisjoint := (List.nodup_append.1 hkeys).2.2
        exact fun hmem => hdisjoint e.key hmem e.key (by simp) rfl
      have hkeys' : (Entries.keys (t ++ [(e.key, Item.value e.value)]) ++
          es.map Entry.key).Nodup := by
        simpa [Entries.keys] using hkeys
      rw [List.flatMap_cons, readLines?_chars he hnew, ih hes hkeys' (by simp at hfuel; omega)]
      simp

/-! ## documents -/

/-- The entries of lines are the entries of the table. -/
theorem entriesToValue_map (es : List Entry) :
    Item.entriesToValue (es.map fun e => (e.key, .value e.value)) =
      es.map fun e => (e.key, e.value) := by
  induction es with
  | nil => rfl
  | cons e es ih => simp [Item.entriesToValue, Item.toValue, ih]

/-- There is a character for each line, and so fuel enough. -/
theorem length_le_length_flatMap (es : List Entry) :
    es.length ≤ (es.flatMap Entry.chars).length := by
  induction es with
  | nil => exact Nat.le_refl 0
  | cons e es ih =>
      have hline : 1 ≤ e.chars.length := by simp [Entry.chars]; omega
      rw [List.flatMap_cons, List.length_append, List.length_cons]
      omega

/-- A written document does not begin with a byte order mark. -/
theorem dropMark_flatMap {es : List Entry} (h : ∀ e ∈ es, e.WellFormed) :
    dropMark (es.flatMap Entry.chars) = es.flatMap Entry.chars := by
  cases es with
  | nil => rfl
  | cons e es =>
      obtain ⟨c, cs, hchars, hc⟩ := (h e (by simp)).exists_chars_eq_cons
      rw [List.flatMap_cons, hchars, List.cons_append, dropMark]
      exact fun more heq => ne_of_isKeyChar hc rfl (List.cons.inj heq).1

/-- **A document of lines is read back**: every entry under its key, in their order. -/
theorem read?_flatMap {es : List Entry} (h : ∀ e ∈ es, e.WellFormed)
    (hkeys : (es.map Entry.key).Nodup) :
    read? (String.ofList (es.flatMap Entry.chars)) = some (es.map fun e => (e.key, e.value)) := by
  have hfuel : es.length < 2 * (es.flatMap Entry.chars).length + 2 := by
    have hle := length_le_length_flatMap es
    omega
  have hlines := readLines?_flatMap h (t := []) (by simpa [Entries.keys] using hkeys) hfuel
  rw [read?, String.toList_ofList, dropMark_flatMap h]
  rw [hlines, Option.map_some, List.nil_append, entriesToValue_map]

end Extraction.Toml
