import Extraction.Toml.Text

/-!
# Extraction.Proofs.Toml.Text

A text that was written as a TOML string is read back, in whichever of the four forms it was
written.

As with other readers, each statement is about a written text with any text behind it:

```
readString? (writeString cs ++ rest) = some (cs, rest)
```

The text behind must not begin with a mark of strings, for a closing mark would run on.

* `IsEscape`, `isEscape_of_escape?` — the escapes that are written, and what both kinds of basic
  strings read in their place;
* `readBasic?_basicBody`, `readLiteral?_append` — strings on one line;
* `closing_replicate` — marks before a triple closing mark belong to the text;
* `readLongBasic?_longBasicBody`, `readLongLiteral?_append` — strings over several lines, where
  no three marks stand in a row inside the text;
* `readString?_writeString` — the form that a text is written in.
-/

namespace Extraction.Toml

/-! ## escapes -/

/-- The escapes of a character by a letter and by the four digits of its code. -/
inductive IsEscape (c : Char) : List Char → Prop
  | letter {l : Char} : unescape? l = some c → IsEscape c ['\\', l]
  | code {a b x d : Char} : charOf? [a, b, x, d] = some c → IsEscape c ['\\', 'u', a, b, x, d]

/-- The letters that `unescape?` knows. -/
theorem mem_of_unescape? {l c : Char} (h : unescape? l = some c) :
    l ∈ ['"', '\\', 'b', 't', 'n', 'f', 'r'] := by
  unfold unescape? at h
  by_cases hmem : l ∈ ['"', '\\', 'b', 't', 'n', 'f', 'r']
  · exact hmem
  · simp only [List.mem_cons, List.not_mem_nil, or_false, not_or] at hmem
    simp [hmem] at h

/-- Control characters have codes below 128, so a property of them can be tried out. -/
theorem forall_isControl {P : Char → Prop} (h : ∀ n : Fin 128, P (Char.ofNat n.val)) {c : Char}
    (hc : isControl c = true) : P c := by
  have hlt : c.toNat < 128 := by
    simp only [isControl, Bool.or_eq_true, Bool.and_eq_true, decide_eq_true_eq] at hc
    cases hc with
    | inl hlow => omega
    | inr hdelete => rw [hdelete]; decide
  have hchar := h ⟨c.toNat, hlt⟩
  rwa [Char.ofNat_toNat] at hchar

/-- The code of a control character is read back from its four digits. -/
theorem charOf?_padded {c : Char} (h : isControl c = true) :
    charOf? (Text.Hex.padded Text.Hex.upperDigit 4 c.toNat) = some c :=
  forall_isControl (P := fun c =>
    charOf? (Text.Hex.padded Text.Hex.upperDigit 4 c.toNat) = some c) (by decide) h

/-- What `escape?` writes for a character `IsEscape` of it. -/
theorem isEscape_of_escape? {c : Char} {e : List Char} (h : escape? c = some e) :
    IsEscape c e := by
  unfold escape? at h
  split at h; · subst_vars; cases h; exact .letter rfl
  split at h; · subst_vars; cases h; exact .letter rfl
  split at h; · subst_vars; cases h; exact .letter rfl
  split at h; · subst_vars; cases h; exact .letter rfl
  split at h; · subst_vars; cases h; exact .letter rfl
  split at h
  · next hcontrol =>
    simp only [Bool.and_eq_true] at hcontrol
    cases h
    exact .code (charOf?_padded hcontrol.1)
  · cases h

/-- A character without an escape may stand in a string over several lines as it is. -/
theorem plain_of_escape?_eq_none {c : Char} (h : escape? c = none) :
    c ≠ '\\' ∧ c ≠ '\r' ∧ (isControl c = true → c = '\n') := by
  have hne : ∀ d, escape? d ≠ none → c ≠ d := by
    intro d hd heq
    rw [heq] at h
    exact hd h
  refine ⟨hne _ (by decide), hne _ (by decide), fun hcontrol => ?_⟩
  have hfeed : c = '\n' ∨ escape? c ≠ none :=
    forall_isControl (P := fun c => isControl c = true → c = '\n' ∨ escape? c ≠ none)
      (by decide) hcontrol hcontrol
  exact hfeed.resolve_right fun hsome => hsome h

/-! ## strings on one line -/

/-- `readBasic?` takes an escape for its character. -/
theorem readBasic?_escape {c : Char} {e : List Char} (h : IsEscape c e) (rest : List Char) :
    readBasic? (e ++ rest) = (readBasic? rest).map (prepend c) := by
  cases h with
  | @letter l hl =>
      have hmem := mem_of_unescape? hl
      have hu : l ≠ 'u' := by rintro rfl; exact absurd hmem (by decide)
      have hU : l ≠ 'U' := by rintro rfl; exact absurd hmem (by decide)
      rw [List.cons_append, List.singleton_append, readBasic?]
      · simp [hl]
      · exact fun _ _ _ _ _ heq => absurd heq hu
      · exact fun _ _ _ _ _ _ _ _ _ heq => absurd heq hU
  | code hcode => simp [readBasic?, hcode]

/-- `readBasic?` takes every other character for itself. -/
theorem readBasic?_cons {c : Char} (hmark : c ≠ '"') (hbackslash : c ≠ '\\')
    (hcontrol : isControl c = false) (rest : List Char) :
    readBasic? (c :: rest) = (readBasic? rest).map (prepend c) := by
  rw [readBasic?]
  · simp [hcontrol, hbackslash]
  · exact hmark
  · exact fun _ _ _ _ _ heq => absurd heq hbackslash
  · exact fun _ _ _ _ _ _ _ _ _ heq => absurd heq hbackslash
  · exact fun _ _ heq => absurd heq hbackslash

/-- The text of a basic string does not begin with a mark, so the opening mark is a single one. -/
theorem head?_basicBody (cs : List Char) : (basicBody cs).head? ≠ some '"' := by
  cases cs with
  | nil => simp [basicBody]
  | cons c cs =>
      rw [basicBody]
      by_cases hmark : c = '"'
      · simp [hmark]
      · by_cases hfeed : c = '\n'
        · simp [hfeed]
        · rw [if_neg hmark, if_neg hfeed]
          cases he : escape? c with
          | some e => cases isEscape_of_escape? he <;> simp
          | none => simpa using hmark

/-- A basic string is read back up to its closing mark. -/
theorem readBasic?_basicBody (cs rest : List Char) :
    readBasic? (basicBody cs ++ '"' :: rest) = some (cs, rest) := by
  induction cs with
  | nil => rfl
  | cons c cs ih =>
      rw [basicBody, List.append_assoc]
      by_cases hmark : c = '"'
      · rw [if_pos hmark, readBasic?_escape (.letter (c := c) (by rw [hmark]; rfl)), ih]
        rfl
      · rw [if_neg hmark]
        by_cases hfeed : c = '\n'
        · rw [if_pos hfeed, readBasic?_escape (.letter (c := c) (by rw [hfeed]; rfl)), ih]
          rfl
        · rw [if_neg hfeed]
          cases he : escape? c with
          | some e =>
              rw [Option.getD_some, readBasic?_escape (isEscape_of_escape? he), ih]
              rfl
          | none =>
              obtain ⟨hbackslash, -, hcontrol⟩ := plain_of_escape?_eq_none he
              have hplain : isControl c = false :=
                Bool.eq_false_iff.2 fun h => hfeed (hcontrol h)
              rw [Option.getD_none, List.singleton_append,
                readBasic?_cons hmark hbackslash hplain, ih]
              rfl

/-- A literal string is read back up to its closing mark. -/
theorem readLiteral?_append {cs : List Char} (hmark : '\'' ∉ cs)
    (hcontrol : ∀ c ∈ cs, isControl c = false) (rest : List Char) :
    readLiteral? (cs ++ '\'' :: rest) = some (cs, rest) := by
  induction cs with
  | nil => rfl
  | cons c cs ih =>
      obtain ⟨hc, hcs⟩ := List.forall_mem_cons.1 hcontrol
      have hne : c ≠ '\'' := fun heq => hmark (by simp [heq])
      rw [List.cons_append, readLiteral?, ih (fun h => hmark (List.mem_cons_of_mem c h)) hcs]
      · simp [hc, prepend]
      · exact hne

/-! ## strings over several lines -/

/-- Up to two marks in front of a triple closing mark belong to the text. -/
theorem closing_replicate {mark : Char} {k : Nat} (hk : k ≤ 2) {rest : List Char}
    (hrest : rest.head? ≠ some mark) :
    closing mark (List.replicate k mark ++ rest) = (List.replicate k mark, rest) := by
  have hhead : ∀ {a : Char} {as : List Char}, rest = a :: as → a ≠ mark := by
    intro a as heq hmark
    rw [heq, hmark] at hrest
    exact hrest rfl
  match k with
  | 0 =>
      match rest with
      | [] => rfl
      | [a] => simp [closing, hhead rfl]
      | a :: b :: as => simp [closing, hhead rfl]
  | 1 =>
      match rest with
      | [] => simp [closing]
      | a :: as => simp [closing, hhead rfl]
  | 2 => simp [closing]

/-- `readLongBasic?` takes an escape for its character. -/
theorem readLongBasic?_escape {c : Char} {e : List Char} (h : IsEscape c e) (rest : List Char) :
    readLongBasic? false (e ++ rest) = (readLongBasic? false rest).map (prepend c) := by
  cases h with
  | @letter l hl =>
      have hmem := mem_of_unescape? hl
      have hu : l ≠ 'u' := by rintro rfl; exact absurd hmem (by decide)
      have hU : l ≠ 'U' := by rintro rfl; exact absurd hmem (by decide)
      have hends : endsLine (l :: rest) = false := by
        simp only [List.mem_cons, List.not_mem_nil, or_false] at hmem
        obtain rfl | rfl | rfl | rfl | rfl | rfl | rfl := hmem <;> rfl
      rw [List.cons_append, List.singleton_append, readLongBasic?]
      · simp [hl, hends]
      · exact fun _ _ _ _ _ heq => absurd heq hu
      · exact fun _ _ _ _ _ _ _ _ _ heq => absurd heq hU
  | code hcode => simp [readLongBasic?, hcode]

/-- `readLongBasic?` takes every other character for itself, a line feed too, where no three marks
close the text. -/
theorem readLongBasic?_cons {c : Char} (hbackslash : c ≠ '\\') (hreturn : c ≠ '\r')
    (hcontrol : isControl c = true → c = '\n') {rest : List Char}
    (hmarks : ∀ more, c = '"' → rest ≠ '"' :: '"' :: more) :
    readLongBasic? false (c :: rest) = (readLongBasic? false rest).map (prepend c) := by
  rw [readLongBasic?]
  · have hplain : (isControl c && decide (c ≠ '\n')) = false := by
      cases h : isControl c with
      | true => simp [hcontrol h]
      | false => rfl
    simp only [hplain, hbackslash]
    simp
  · exact hmarks
  · exact fun _ heq => absurd heq hreturn
  · exact fun _ _ _ _ _ heq => absurd heq hbackslash
  · exact fun _ _ _ _ _ _ _ _ _ heq => absurd heq hbackslash
  · exact fun _ _ heq => absurd heq hbackslash

/-- The marks at the end of a text and the closing marks, seen from the first of them. -/
theorem cons_replicate_append (mark : Char) (k : Nat) (rest : List Char) :
    mark :: (List.replicate k mark ++ mark :: mark :: mark :: rest) =
      mark :: mark :: mark :: (List.replicate (k + 1) mark ++ rest) := by
  induction k with
  | zero => rfl
  | succ k ih =>
      rw [List.replicate_succ, List.cons_append, ih]
      rfl

/-- `longBasicBody` writes the first two marks of a run as they are. -/
theorem longBasicBody_mark {run : Nat} (h : run ≠ 2) (cs : List Char) :
    longBasicBody run ('"' :: cs) = '"' :: longBasicBody (run + 1) cs := by
  rw [longBasicBody, if_pos rfl, if_neg h]

/-- `longBasicBody` escapes the third mark of a run. -/
theorem longBasicBody_thirdMark (cs : List Char) :
    longBasicBody 2 ('"' :: cs) = ['\\', '"'] ++ longBasicBody 0 cs := by
  rw [longBasicBody, if_pos rfl, if_pos rfl]
  rfl

/-- A character that is no mark ends the run of marks. -/
theorem longBasicBody_of_ne {c : Char} (h : c ≠ '"') (run : Nat) (cs : List Char) :
    longBasicBody run (c :: cs) = (escape? c).getD [c] ++ longBasicBody 0 cs := by
  rw [longBasicBody, if_neg h]

/-- The third mark in a row, and every character that is no mark, is written by something that
does not begin with a mark. -/
theorem exists_longBasicBody_eq_cons {run : Nat} {c : Char} (h : c = '"' → run = 2)
    (cs : List Char) : ∃ d ds, longBasicBody run (c :: cs) = d :: ds ∧ d ≠ '"' := by
  by_cases hmark : c = '"'
  · rw [hmark, h hmark, longBasicBody_thirdMark]
    exact ⟨_, _, rfl, by decide⟩
  · rw [longBasicBody_of_ne hmark]
    cases he : escape? c with
    | some e =>
        cases isEscape_of_escape? he with
        | letter hl => exact ⟨_, _, rfl, by decide⟩
        | code hcode => exact ⟨_, _, rfl, by decide⟩
    | none => exact ⟨_, _, rfl, hmark⟩

/-- Where two marks stand behind one, they are the closing marks, or the text has one more. -/
theorem eq_replicate_of_longBasicBody {run : Nat} {cs rest more : List Char} (hrun : run ≤ 1)
    (h : longBasicBody (run + 1) cs ++ '"' :: '"' :: '"' :: rest = '"' :: '"' :: more) :
    ∃ k, k ≤ 1 ∧ cs = List.replicate k '"' ∧ longBasicBody (run + 1) cs = cs := by
  match cs with
  | [] => exact ⟨0, by decide, rfl, rfl⟩
  | c :: cs =>
      by_cases hfirst : c = '"' → run + 1 = 2
      · obtain ⟨d, ds, hbody, hd⟩ := exists_longBasicBody_eq_cons hfirst cs
        rw [hbody, List.cons_append] at h
        exact absurd (List.cons.inj h).1 hd
      · obtain ⟨rfl, hone⟩ : c = '"' ∧ run + 1 ≠ 2 := by simpa using hfirst
        obtain rfl : run = 0 := by omega
        rw [longBasicBody_mark hone] at h ⊢
        match cs with
        | [] => exact ⟨1, by decide, rfl, rfl⟩
        | d :: ds =>
            obtain ⟨x, xs, hbody, hx⟩ : ∃ x xs, longBasicBody 2 (d :: ds) = x :: xs ∧ x ≠ '"' :=
              exists_longBasicBody_eq_cons (fun _ => rfl) ds
            rw [hbody] at h
            exact absurd (List.cons.inj (List.cons.inj h).2).1 hx

/-- A basic string over several lines is read back up to its closing marks; `run` marks stand
in front of what is still to be read. -/
theorem readLongBasic?_longBasicBody {rest : List Char} (hrest : rest.head? ≠ some '"')
    {run : Nat} (hrun : run ≤ 2) (cs : List Char) :
    readLongBasic? false (longBasicBody run cs ++ '"' :: '"' :: '"' :: rest) =
      some (cs, rest) := by
  induction cs generalizing run with
  | nil =>
      have hclosing := closing_replicate (k := 0) (by decide) hrest
      simpa [longBasicBody, readLongBasic?] using hclosing
  | cons c cs ih =>
      by_cases hmark : c = '"'
      · subst hmark
        by_cases htwo : run = 2
        · rw [htwo, longBasicBody_thirdMark, List.append_assoc,
            readLongBasic?_escape (.letter (c := '"') rfl), ih (by decide)]
          rfl
        · rw [longBasicBody_mark htwo, List.cons_append]
          -- a mark before two others can be one of the marks that close the text
          by_cases hmarks : ∃ more, longBasicBody (run + 1) cs ++ '"' :: '"' :: '"' :: rest =
              '"' :: '"' :: more
          · obtain ⟨more, hmore⟩ := hmarks
            obtain ⟨k, hk, rfl, hbody⟩ := eq_replicate_of_longBasicBody (by omega) hmore
            rw [hbody, cons_replicate_append, readLongBasic?, closing_replicate (by omega) hrest]
            rfl
          · rw [readLongBasic?_cons (by decide) (by decide) (by decide)
              fun more _ heq => hmarks ⟨more, heq⟩, ih (by omega)]
            rfl
      · rw [longBasicBody_of_ne hmark, List.append_assoc]
        cases he : escape? c with
        | some e =>
            rw [Option.getD_some, readLongBasic?_escape (isEscape_of_escape? he), ih (by decide)]
            rfl
        | none =>
            obtain ⟨hbackslash, hreturn, hcontrol⟩ := plain_of_escape?_eq_none he
            rw [Option.getD_none, List.singleton_append, readLongBasic?_cons hbackslash hreturn
              hcontrol fun _ heq => absurd heq hmark, ih (by decide)]
            rfl

/-- The run that is open counts for `longestRun`. -/
theorem le_longestRun (mark : Char) (run : Nat) (cs : List Char) :
    run ≤ longestRun mark run cs := by
  induction cs generalizing run with
  | nil => exact Nat.le_refl run
  | cons c cs ih =>
      unfold longestRun
      by_cases hmark : c = mark
      · rw [if_pos hmark]
        exact Nat.le_trans (Nat.le_add_right run 1) (ih (run + 1))
      · rw [if_neg hmark]
        exact Nat.le_max_left _ _

/-- A further mark makes the open run longer. -/
theorem longestRun_mark (mark : Char) (run : Nat) (cs : List Char) :
    longestRun mark run (mark :: cs) = longestRun mark (run + 1) cs := by
  rw [longestRun, if_pos rfl]

/-- A character that is no mark ends the run, and what follows has no longer ones. -/
theorem longestRun_zero_le {mark : Char} {run n : Nat} {c : Char} {cs : List Char} (hc : c ≠ mark)
    (h : longestRun mark run (c :: cs) ≤ n) : longestRun mark 0 cs ≤ n := by
  rw [longestRun, if_neg hc] at h
  exact Nat.le_trans (Nat.le_max_right _ _) h

/-- In a text without three marks in a row, two marks behind one are the closing marks, or the
text has one more. -/
theorem eq_replicate_of_longestRun {mark : Char} {run : Nat} {cs rest more : List Char}
    (hrun : longestRun mark (run + 1) cs ≤ 2)
    (h : cs ++ mark :: mark :: mark :: rest = mark :: mark :: more) :
    ∃ k, k ≤ 1 ∧ cs = List.replicate k mark := by
  match cs with
  | [] => exact ⟨0, by decide, rfl⟩
  | [c] =>
      obtain rfl : c = mark := (List.cons.inj h).1
      exact ⟨1, by decide, rfl⟩
  | c :: d :: ds =>
      obtain rfl : c = mark := (List.cons.inj h).1
      obtain rfl : d = c := (List.cons.inj (List.cons.inj h).2).1
      rw [longestRun_mark, longestRun_mark] at hrun
      have hle := le_longestRun d (run + 1 + 1 + 1) ds
      omega

/-- `readLongLiteral?` takes a character for itself where no three marks close the text. -/
theorem readLongLiteral?_cons {c : Char} (hreturn : c ≠ '\r')
    (hcontrol : isControl c = true → c = '\n') {rest : List Char}
    (hmarks : ∀ more, c = '\'' → rest ≠ '\'' :: '\'' :: more) :
    readLongLiteral? (c :: rest) = (readLongLiteral? rest).map (prepend c) := by
  rw [readLongLiteral?]
  · have hplain : (isControl c && decide (c ≠ '\n')) = false := by
      cases h : isControl c with
      | true => simp [hcontrol h]
      | false => rfl
    simp only [hplain]
    simp
  · exact hmarks
  · exact fun _ heq => absurd heq hreturn

/-- A literal string over several lines is read back up to its closing marks. -/
theorem readLongLiteral?_append {rest : List Char} (hrest : rest.head? ≠ some '\'')
    {run : Nat} {cs : List Char} (hrun : longestRun '\'' run cs ≤ 2)
    (hcontrol : ∀ c ∈ cs, isControl c = true → c = '\n') :
    readLongLiteral? (cs ++ '\'' :: '\'' :: '\'' :: rest) = some (cs, rest) := by
  induction cs generalizing run with
  | nil =>
      have hclosing := closing_replicate (k := 0) (by decide) hrest
      simpa [readLongLiteral?] using hclosing
  | cons c cs ih =>
      obtain ⟨hc, hcs⟩ := List.forall_mem_cons.1 hcontrol
      have hreturn : c ≠ '\r' := by
        intro heq
        rw [heq] at hc
        exact absurd (hc rfl) (by decide)
      rw [List.cons_append]
      by_cases hmark : c = '\''
      · subst hmark
        rw [longestRun_mark] at hrun
        by_cases hmarks : ∃ more, cs ++ '\'' :: '\'' :: '\'' :: rest = '\'' :: '\'' :: more
        · obtain ⟨more, hmore⟩ := hmarks
          obtain ⟨k, hk, rfl⟩ := eq_replicate_of_longestRun hrun hmore
          rw [cons_replicate_append, readLongLiteral?, closing_replicate (by omega) hrest]
          rfl
        · rw [readLongLiteral?_cons hreturn hc fun more _ heq => hmarks ⟨more, heq⟩, ih hrun hcs]
          rfl
      · rw [readLongLiteral?_cons hreturn hc fun _ heq => absurd heq hmark,
          ih (longestRun_zero_le hmark hrun) hcs]
        rfl

/-! ## the form that a text is written in -/

/-- Without need of escapes the line feed is the only control character. -/
theorem isControl_of_needsEscapes {cs : List Char} (h : needsEscapes cs = false) :
    ∀ c ∈ cs, isControl c = true → c = '\n' := by
  intro c hc hcontrol
  simpa [needsEscapes, hcontrol] using List.any_eq_false.1 h c hc

/-- What a text that is written as a literal string does not hold. -/
theorem of_kind_eq_literal {cs : List Char} (h : StringKind.of cs = .literal) :
    cs ≠ [] ∧ '\'' ∉ cs ∧ ∀ c ∈ cs, isControl c = false := by
  have hne : cs ≠ [] := by
    intro hnil
    rw [hnil] at h
    exact absurd h (by decide)
  have hsafe : needsEscapes cs = false ∧ '\'' ∉ cs ∧ '\n' ∉ cs := by
    unfold StringKind.of at h
    grind
  obtain ⟨hescapes, hmark, hbreak⟩ := hsafe
  refine ⟨hne, hmark, fun c hc => Bool.eq_false_iff.2 fun hcontrol => hbreak ?_⟩
  rw [← isControl_of_needsEscapes hescapes c hc hcontrol]
  exact hc

/-- A text is put between three marks only if it needs no escapes and has no three of them. -/
theorem of_kind_eq_longLiteral {cs : List Char} (h : StringKind.of cs = .longLiteral) :
    needsEscapes cs = false ∧ longestRun '\'' 0 cs ≤ 2 := by
  unfold StringKind.of at h
  grind

/-- **A written string is read back**, whatever its text is and whichever form was chosen for it,
if no mark of strings stands behind it. -/
theorem readString?_writeString (cs : List Char) {rest : List Char}
    (hbasic : rest.head? ≠ some '"') (hliteral : rest.head? ≠ some '\'') :
    readString? (writeString cs ++ rest) = some (cs, rest) := by
  have hshort : ∀ {mark : Char} {body more : List Char}, rest.head? ≠ some mark →
      body.head? ≠ some mark → body ++ mark :: rest ≠ mark :: mark :: more := by
    intro mark body more hrest hbody heq
    cases body with
    | nil => simp [(List.cons.inj heq).2] at hrest
    | cons c body => simp [(List.cons.inj heq).1] at hbody
  unfold writeString
  cases hkind : StringKind.of cs with
  | basic =>
      dsimp only
      rw [List.append_assoc, List.cons_append, readString?, List.singleton_append,
        readBasic?_basicBody]
      exact fun more => hshort hbasic (head?_basicBody cs)
  | literal =>
      obtain ⟨hne, hmark, hcontrol⟩ := of_kind_eq_literal hkind
      have hbody : cs.head? ≠ some '\'' := fun hhead => hmark (List.mem_of_head? hhead)
      dsimp only
      rw [List.append_assoc, List.cons_append, readString?, List.singleton_append,
        readLiteral?_append hmark hcontrol]
      exact fun more => hshort hliteral hbody
  | longBasic =>
      have hread := readLongBasic?_longBasicBody hbasic (Nat.zero_le 2) cs
      simpa [readString?, dropBreak, afterBreak?] using hread
  | longLiteral =>
      obtain ⟨hescapes, hrun⟩ := of_kind_eq_longLiteral hkind
      have hread := readLongLiteral?_append hliteral hrun (isControl_of_needsEscapes hescapes)
      simpa [readString?, dropBreak, afterBreak?] using hread

end Extraction.Toml
