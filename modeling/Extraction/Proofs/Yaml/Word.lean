import Extraction.Yaml.Reader

/-!
# Extraction.Proofs.Yaml.Word

A text that is a single word is a plain scalar.

A word is made of letters, digits, `-` and `_`; a dash at its front must have something else
than a dash behind it.  Nothing in a word is a gap, a bracket or a mark, so the first step
takes all of it, and the second one is at the end of the text:

* `plainWord_of_isWord` — the word is taken as a whole;
* `Progress.run_of_rest_nil` — what the end of a text does outside all collections;
* `Progress.exists_plain`, `Progress.next_of_isWord` — the step that takes the word;
* `tokens_of_bareWord` — the tokens of the text;
* `readValue_of_bareWord` — its value is that of the plain scalar.
-/

namespace Extraction.Yaml

/-! ## the characters of words -/

/-- A character of words is none of those that are not. -/
theorem ne_of_isWord {c d : Char} (hc : isWord c = true) (hd : isWord d = false) : c ≠ d := by
  rintro rfl
  rw [hc] at hd
  cases hd

theorem isGap_of_isWord {c : Char} (hc : isWord c = true) : isGap c = false := by
  have hne : ∀ d, isWord d = false → c ≠ d := fun _ => ne_of_isWord hc
  simp [isGap, isBlank, isBreak, hne ' ' rfl, hne '\t' rfl, hne '\n' rfl, hne '\r' rfl,
    hne '\x85' rfl, hne '\u2028' rfl, hne '\u2029' rfl]

theorem isBlank_of_isWord {c : Char} (hc : isWord c = true) : isBlank c = false :=
  (Bool.or_eq_false_iff.1 (isGap_of_isWord hc)).1

theorem isBreak_of_isWord {c : Char} (hc : isWord c = true) : isBreak c = false :=
  (Bool.or_eq_false_iff.1 (isGap_of_isWord hc)).2

theorem isFlowIndicator_of_isWord {c : Char} (hc : isWord c = true) :
    isFlowIndicator c = false := by
  have hne : ∀ d, isWord d = false → c ≠ d := fun _ => ne_of_isWord hc
  simp [isFlowIndicator, hne ',' rfl, hne '[' rfl, hne ']' rfl, hne '\x7b' rfl, hne '\x7d' rfl]

/-- The dash is the only indicator that may stand in a word. -/
theorem isIndicator_of_isWord {c : Char} (hc : isWord c = true) (hdash : c ≠ '-') :
    isIndicator c = false := by
  have hothers : ("-?:#&*!|>'\"%@`".toList.all fun d => d == '-' || !isWord d) = true := by
    decide
  rw [isIndicator, isFlowIndicator_of_isWord hc, Bool.false_or, ← Bool.not_eq_true,
    List.contains_iff_mem]
  intro hmem
  have hother := List.all_eq_true.1 hothers c hmem
  rw [hc, Bool.not_true, Bool.or_false, beq_iff_eq] at hother
  exact hdash hother

/-- The characters of words may stand in a YAML text. -/
theorem isAllowed_of_isWord {c : Char} (hc : isWord c = true) : isAllowed c = true := by
  have hrange : ' ' ≤ c ∧ c ≤ '~' := by
    simp only [isWord, Bool.or_eq_true, Bool.and_eq_true, decide_eq_true_eq] at hc
    rcases hc with (((⟨h, h'⟩ | ⟨h, h'⟩) | ⟨h, h'⟩) | rfl) | rfl
    · exact ⟨Char.le_trans (by decide) h, Char.le_trans h' (by decide)⟩
    · exact ⟨Char.le_trans (by decide) h, Char.le_trans h' (by decide)⟩
    · exact ⟨Char.le_trans (by decide) h, Char.le_trans h' (by decide)⟩
    · decide
    · decide
  have hge : 0x20 ≤ c.toNat := UInt32.le_iff_toNat_le.1 (Char.le_def.1 hrange.1)
  have hle : c.toNat ≤ 0x7E := UInt32.le_iff_toNat_le.1 (Char.le_def.1 hrange.2)
  simp [isAllowed, hge, hle]

/-! ## words -/

/-- A text of letters, digits, `-` and `_` that begins neither with the dash of an item nor
with two dashes. -/
structure BareWord (cs : List Char) : Prop where
  ne_nil : cs ≠ []
  chars : ∀ c ∈ cs, isWord c = true
  dash : ∀ ds, cs = '-' :: ds → ∃ e es, ds = e :: es ∧ e ≠ '-'

/-- A `BareWord` begins with a character of words. -/
theorem BareWord.head {cs : List Char} (h : BareWord cs) : ∀ c ∈ cs.head?, isWord c = true :=
  fun c hc => h.chars c (List.mem_of_mem_head? hc)

/-- Nothing in a word ends it. -/
theorem plainWord_of_isWord {cs : List Char} (h : ∀ c ∈ cs, isWord c = true) (flow : Bool) :
    plainWord flow cs = .ok cs := by
  induction cs with
  | nil => rfl
  | cons c cs ih =>
      have hc : isWord c = true := h c List.mem_cons_self
      have hcs := ih fun d hd => h d (List.mem_cons_of_mem c hd)
      have hcolon : c ≠ ':' := ne_of_isWord hc rfl
      simp [plainWord, isGap_of_isWord hc, isFlowIndicator_of_isWord hc, hcolon, hcs, Except.map]

/-- A word is not the marker of a document. -/
theorem BareWord.startsWithMarker {cs : List Char} (h : BareWord cs) :
    startsWithMarker '-' cs = false ∧ startsWithMarker '.' cs = false := by
  rcases cs with _ | ⟨a, _ | ⟨b, _ | ⟨c, cs⟩⟩⟩
  · exact ⟨rfl, rfl⟩
  · exact ⟨rfl, rfl⟩
  · exact ⟨rfl, rfl⟩
  · have hdot : a ≠ '.' := ne_of_isWord (h.chars a List.mem_cons_self) rfl
    have hdash : ¬ (a = '-' ∧ b = '-') := by
      rintro ⟨rfl, rfl⟩
      obtain ⟨e, es, he, hne⟩ := h.dash _ rfl
      exact hne (List.cons.inj he).1.symm
    simp only [Yaml.startsWithMarker, hdot, decide_false, Bool.false_and, and_true]
    rw [← Bool.not_eq_true]
    simp only [Bool.and_eq_true, decide_eq_true_eq]
    exact fun hmark => hdash hmark.1.1

/-- A word begins a plain scalar. -/
theorem BareWord.startsPlain {c : Char} {cs : List Char} (h : BareWord (c :: cs)) :
    Progress.startsPlain false c cs = true := by
  have hc : isWord c = true := h.chars c List.mem_cons_self
  by_cases hdash : c = '-'
  · subst hdash
    obtain ⟨e, es, rfl, -⟩ := h.dash cs rfl
    have he : isWord e = true := h.chars e (by simp)
    simp [Progress.startsPlain, isBlank_of_isWord he]
  · simp [Progress.startsPlain, isGap_of_isWord hc, isIndicator_of_isWord hc hdash]

/-! ## places -/

namespace Place

/-- `skipWhile` stays where the next character is not of the kind. -/
theorem skipWhile_eq_self {isIn : Char → Bool} {p : Place}
    (h : ∀ c ∈ p.rest.head?, isIn c = false) : p.skipWhile isIn = p := by
  have hnone : p.rest.takeWhile isIn = [] := by
    cases hrest : p.rest with
    | nil => rfl
    | cons c cs => simp [h c (by simp [hrest])]
  rw [skipWhile, span, hnone]
  rfl

/-- `skipComment` stays where no comment begins. -/
theorem skipComment_eq_self {p : Place} (h : p.rest.head? ≠ some '#') : p.skipComment = p := by
  rw [skipComment]
  split
  · next hrest => exact absurd (by rw [hrest]; rfl) h
  · rfl

/-- `break?` finds no line break where the next character is none. -/
theorem break?_eq_none {p : Place} (h : ∀ c ∈ p.rest.head?, isBreak c = false) :
    p.break? = none := by
  rw [break?]
  split
  · next hrest => exact absurd (h '\r' (by rw [hrest]; rfl)) (by decide)
  · next c _ _ hrest => rw [if_neg (by simp [h c (by rw [hrest]; rfl)])]
  · rfl

/-- Skipping all characters leads to the end of the text. -/
theorem rest_skip_length {p : Place} : (p.skip p.rest.length).rest = [] := by
  simp [skip]

end Place

/-! ## steps -/

namespace Progress

/-- Outside all collections, and no key has to follow. -/
structure Idle (s : Progress) : Prop where
  columns : s.columns = []
  outerMarks : s.outerMarks = []
  mark : ∀ m ∈ s.mark, m.binding = false

variable {s : Progress}

/-- An `Idle` scanner is outside flow collections. -/
theorem Idle.flow (h : s.Idle) : s.flow = false := by simp [Progress.flow, h.outerMarks]

/-- There is nothing to pass over before a word and at the end of a text. -/
theorem skipGaps_eq_self (h : ∀ c ∈ s.place.rest.head?, isWord c = true) (fuel : Nat) :
    s.skipGaps (fuel + 1) = s := by
  have hblank : ∀ c ∈ s.place.rest.head?,
      (c = ' ' || (s.flow || !s.keyAllowed) && c = '\t' : Bool) = false := fun c hc => by
    have hne : ∀ d, isWord d = false → c ≠ d := fun _ => ne_of_isWord (h c hc)
    simp [hne ' ' rfl, hne '\t' rfl]
  have hcomment : s.place.rest.head? ≠ some '#' := fun hc =>
    ne_of_isWord (h '#' hc) rfl rfl
  have hbreak : s.place.break? = none :=
    Place.break?_eq_none fun c hc => isBreak_of_isWord (h c hc)
  simp only [skipGaps, Place.skipWhile_eq_self hblank, Place.skipComment_eq_self hcomment, hbreak]

/-- An `Idle` scanner may forget the place of a key. -/
theorem Idle.dropMark (h : s.Idle) : s.dropMark = .ok { s with mark := none } := by
  rw [Progress.dropMark]
  cases hm : s.mark with
  | none =>
    cases s
    cases hm
    rfl
  | some m => simp [h.mark m hm]

/-- `refresh` never complains of a key that need not follow. -/
theorem exists_refresh {mark : Option KeyMark} (h : ∀ m ∈ mark, m.binding = false) (p : Place) :
    ∃ mark', refresh p mark = .ok mark' ∧ ∀ m ∈ mark', m.binding = false := by
  cases mark with
  | none => exact ⟨none, rfl, h⟩
  | some m =>
      have hm : m.binding = false := h m rfl
      by_cases hstale : isStale p m = true
      · exact ⟨none, by simp [refresh, hstale, hm], by simp⟩
      · exact ⟨some m, by simp [refresh, hstale], h⟩

/-- Stale marks are dropped without an error. -/
theorem Idle.exists_dropStale (h : s.Idle) :
    ∃ mark, s.dropStale = .ok { s with mark } ∧ Idle { s with mark } := by
  obtain ⟨mark, hmark, hbinding⟩ := exists_refresh h.mark s.place
  obtain ⟨hcolumns, houter, -⟩ := h
  refine ⟨mark, ?_, hcolumns, houter, hbinding⟩
  simp only [dropStale, hmark, houter, bind, Except.bind, List.mapM_nil, pure, Except.pure]

/-- There is no block to close in an `Idle` scanner, at whichever column. -/
theorem Idle.closeBeyond (h : s.Idle) (column : Nat) : s.closeBeyond column = s := by
  obtain ⟨hcolumns, houter, -⟩ := h
  cases s
  cases hcolumns
  cases houter
  rfl

/-- There is no block left to close at the end of an `Idle` text. -/
theorem Idle.closeAll (h : s.Idle) : s.closeAll = s := by
  obtain ⟨hcolumns, houter, -⟩ := h
  cases s
  cases hcolumns
  cases houter
  rfl

/-- At the end of a text the tokens are complete. -/
theorem run_of_rest_nil (h : s.Idle) (hrest : s.place.rest = []) (fuel : Nat) :
    run (fuel + 1) s = .ok s.tokens.reverse := by
  have hgaps : s.skipGaps (fuel + 1) = s := skipGaps_eq_self (by simp [hrest]) fuel
  obtain ⟨mark, hstale, hidle⟩ := h.exists_dropStale
  simp only [run, hgaps, hstale, bind, Except.bind, hidle.closeBeyond, hrest, hidle.closeAll,
    hidle.dropMark, pure, Except.pure]

/-- Before a word the next step reads what it begins. -/
theorem run_of_isWord (h : s.Idle) {c : Char} {cs : List Char} (hrest : s.place.rest = c :: cs)
    (hc : isWord c = true) (fuel : Nat) :
    ∃ mark, Idle { s with mark } ∧
      run (fuel + 1) s = (next (fuel + 1) c cs { s with mark }).bind (run fuel) := by
  have hgaps : s.skipGaps (fuel + 1) = s :=
    skipGaps_eq_self (by simpa [hrest] using hc) fuel
  obtain ⟨mark, hstale, hidle⟩ := h.exists_dropStale
  refine ⟨mark, hidle, ?_⟩
  simp only [run, hgaps, hstale, bind, Except.bind, hidle.closeBeyond, hrest]

/-- A word is read to the end of the text. -/
theorem plainFrom_bareWord {p : Place} (h : BareWord p.rest) (flow : Bool) (margin fuel : Nat) :
    plainFrom flow margin (fuel + 1) [] false p =
      .ok ⟨p.rest, p.skip p.rest.length, false⟩ := by
  have hmarker : p.atMarker = false := by simp [Place.atMarker, h.startsWithMarker]
  have hcomment : p.rest.head? ≠ some '#' := fun hc => ne_of_isWord (h.head '#' hc) rfl rfl
  have hgap : (p.skip p.rest.length).span isGap = ([], p.skip p.rest.length) := by
    rw [Place.span, Place.rest_skip_length]
    rfl
  simp only [plainFrom, hmarker, hcomment, plainWord_of_isWord h.chars, hgap, bind, Except.bind]
  simp [h.ne_nil, pure, Except.pure]

/-- `setMark` leaves an `Idle` scanner idle. -/
theorem Idle.exists_setMark (h : s.Idle) :
    ∃ mark, s.setMark = .ok { s with mark } ∧ Idle { s with mark } := by
  rw [setMark]
  split
  · have hbinding : (!s.flow && s.columns.head? = some s.place.column : Bool) = false := by
      simp [h.columns]
    refine ⟨some ⟨false, s.count, s.place.index, s.place.line, s.place.column⟩, ?_,
      h.columns, h.outerMarks, by simp⟩
    rw [h.dropMark]
    simp only [bind, Except.bind, pure, Except.pure]
    rw [← hbinding]
    rfl
  · exact ⟨s.mark, rfl, h⟩

/-- One step takes the word. -/
theorem exists_plain (h : s.Idle) (hword : BareWord s.place.rest) (fuel : Nat) :
    ∃ s', s.plain (fuel + 1) = .ok s' ∧ s'.Idle ∧ s'.place.rest = [] ∧
      s'.tokens = .scalar true (String.ofList s.place.rest) :: s.tokens := by
  obtain ⟨mark, hset, hcolumns, houter, hmark⟩ := h.exists_setMark
  have hplain : s.plain (fuel + 1) =
      .ok { s with
        place := s.place.skip s.place.rest.length
        tokens := .scalar true (String.ofList s.place.rest) :: s.tokens
        count := s.count + 1
        keyAllowed := false
        mark } := by
    simp only [plain, hset, bind, Except.bind, plainFrom_bareWord hword]
    rfl
  exact ⟨_, hplain, ⟨hcolumns, houter, hmark⟩, Place.rest_skip_length, rfl⟩

/-- At a `BareWord` an `Idle` scanner takes a plain scalar. -/
theorem next_of_isWord (h : s.Idle) {c : Char} {cs : List Char}
    (hrest : s.place.rest = c :: cs) (hword : BareWord (c :: cs)) (fuel : Nat) :
    next fuel c cs s = s.plain fuel := by
  have hne : ∀ d, isWord d = false → c ≠ d := fun _ => ne_of_isWord (hword.chars c (by simp))
  have hmarker : s.place.atMarker = false := by
    simp [Place.atMarker, hrest, hword.startsWithMarker]
  have hitem : ¬ (c = '-' ∧ startsWithGap cs = true) := by
    rintro ⟨rfl, hgap⟩
    obtain ⟨e, es, rfl, -⟩ := hword.dash cs rfl
    have he : isGap e = false := isGap_of_isWord (hword.chars e (by simp))
    rw [startsWithGap, he] at hgap
    cases hgap
  simp [next, hmarker, nodeOrIndicator, hitem, h.flow, hword.startsPlain, hne '%' rfl, hne '[' rfl,
    hne '\x7b' rfl, hne ']' rfl, hne '\x7d' rfl, hne ',' rfl, hne '?' rfl, hne ':' rfl, hne '*' rfl,
    hne '&' rfl, hne '!' rfl, hne '|' rfl, hne '>' rfl, hne '\'' rfl, hne '"' rfl]

end Progress

/-! ## texts -/

/-- A scanner is `Idle` at the start of a word. -/
theorem idle_start {cs : List Char} (h : BareWord cs) :
    (Progress.start cs).Idle ∧ (Progress.start cs).place.rest = cs := by
  have hmark : cs.head? ≠ some '\ufeff' := fun hc => ne_of_isWord (h.head _ hc) (by decide) rfl
  refine ⟨⟨rfl, rfl, nofun⟩, ?_⟩
  simp [Progress.start, hmark, Place.start]

/-- A text that is a word is one plain scalar. -/
theorem tokens_of_bareWord {cs : List Char} (h : BareWord cs) :
    tokens cs = .ok [.scalar true (String.ofList cs)] := by
  obtain ⟨hidle, hrest⟩ := idle_start h
  obtain ⟨c, ds, rfl⟩ := List.exists_cons_of_ne_nil h.ne_nil
  obtain ⟨mark, hmark, hrun⟩ := Progress.run_of_isWord hidle hrest (h.chars c (by simp))
    ((c :: ds).length + 1)
  obtain ⟨s', hplain, hidle', hrest', htokens⟩ :=
    Progress.exists_plain hmark (by rwa [hrest]) ((c :: ds).length + 1)
  have hend := Progress.run_of_rest_nil hidle' hrest' (c :: ds).length
  rw [tokens, hrun, Progress.next_of_isWord hmark hrest h, hplain]
  show Progress.run ((c :: ds).length + 1) s' = _
  rw [hend, htokens, hrest]
  rfl

/-- A scalar has its value at any depth, and follows no reference. -/
theorem Links.value_scalar (l : Links) (depth : Nat) (slot : Option Nat) (tag : Option String)
    (plain : Bool) (text : String) (followed : Nat) :
    (l.value depth (.scalar slot tag plain text)).run followed =
      (scalarValue tag plain text).map fun v => (v, followed) := by
  have hlift : ∀ x : Except Error Value,
      (liftM x : Counting Value).run followed = x.map fun v => (v, followed) := fun x => by
    cases x <;> rfl
  cases depth with
  | zero =>
      rw [Links.value]
      exact hlift (scalarValue tag plain text)
  | succ depth =>
      rw [Links.value]
      exact hlift (scalarValue tag plain text)

/-- The value of a document that is one plain scalar. -/
theorem ofNode_plain (text : String) :
    Value.ofNode (.scalar none none true text) = plainValue text := by
  have hlink : Node.link [] (.scalar none none true text) =
      .ok (.scalar none none true text, [], []) := rfl
  simp only [Value.ofNode, hlink, bind, Except.bind, Links.value_scalar]
  cases h : plainValue text <;> simp [scalarValue, h, Except.map, Value.under, ownTag?]
  rfl

/-- A text that is one word has the value of a plain scalar. -/
theorem readValue_of_bareWord {cs : List Char} (h : BareWord cs) :
    readValue cs = plainValue (String.ofList cs) := by
  have hmark : dropMark cs = cs := by
    rw [dropMark]
    intro ds hds
    exact ne_of_isWord (h.chars '\ufeff' (by simp [hds])) (by decide) rfl
  have hallowed : cs.all isAllowed = true :=
    List.all_eq_true.2 fun c hc => isAllowed_of_isWord (h.chars c hc)
  have hdocument : document [.scalar true (String.ofList cs)] =
      .ok (.scalar none none true (String.ofList cs)) := rfl
  simp only [readValue, hmark, hallowed, tokens_of_bareWord h, hdocument, bind, Except.bind,
    ofNode_plain]
  rfl

end Extraction.Yaml
