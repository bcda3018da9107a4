import Extraction.Proofs.Transition.Reading

/-!
# Extraction.Proofs.Transition.Grammar

Which expressions are read without faults.

An expression that is read without faults has been written, provided that behind a `|` there
stands nothing but the alias.  Its text is taken apart in the order in which it was put
together: the alias is cut off at the only `|`, the names at each `#` before it, and what is
left is the path:

* `exists_of_readAlias` — at most one `|`, and what stands behind it;
* `exists_write_of_faults` — an expression without faults is a written form;
* `readExpression_iff_written` — the written forms are the expressions that are read without
  faults and have nothing but the alias behind a `|`;
* `readExpression_misplaced` — expressions with something else behind it.
-/

namespace Extraction.Transition.Expression

open Text

/-- Nothing but the alias stands behind a `|`. -/
def AliasTrails (e : String) : Prop :=
  ∀ before after, e.toList = before ++ aliasDelimiter :: after →
    pathDelimiter ∉ after ∧ assertionDelimiter ∉ after

/-! ## pieces of a text -/

theorem join_cons (d : Char) (p : List Char) (ps : List (List Char)) :
    join d (p :: ps) = p ++ marked d ps := by
  induction ps generalizing p with
  | nil => simp [join, marked]
  | cons q qs ih => simp [join, marked, ih]

/-- `join` keeps every character of its parts. -/
theorem mem_join {c d : Char} {p : List Char} {ps : List (List Char)} (hp : p ∈ ps)
    (hc : c ∈ p) : c ∈ join d ps := by
  cases ps with
  | nil => cases hp
  | cons q qs =>
      rw [join_cons, List.mem_append]
      rcases List.mem_cons.1 hp with rfl | hp
      · exact .inl hc
      · exact .inr (List.mem_flatMap.2 ⟨p, hp, List.mem_cons_of_mem d hc⟩)

/-- A character of a piece is one of the text. -/
theorem mem_of_mem_split {c d : Char} {p cs : List Char} (hp : p ∈ split d cs) (hc : c ∈ p) :
    c ∈ cs := by
  rw [← join_split d cs]
  exact mem_join hp hc

/-- The first piece of a text and the pieces behind its delimiters. -/
theorem exists_marked (d : Char) (cs : List Char) :
    ∃ p ps, cs = p ++ marked d ps ∧ d ∉ p ∧ ∀ q ∈ ps, d ∉ q := by
  obtain ⟨p, ps, hs⟩ := List.exists_cons_of_ne_nil (split_ne_nil d cs)
  have hfree : ∀ q ∈ p :: ps, d ∉ q := fun q hq => not_mem_of_mem_split (hs ▸ hq)
  refine ⟨p, ps, ?_, hfree p List.mem_cons_self, fun q hq => hfree q (List.mem_cons_of_mem p hq)⟩
  rw [← join_cons, ← hs, join_split]

theorem marked_singleton (d : Char) (p : List Char) : marked d [p] = d :: p := by
  simp [marked]

/-! ## the parts of a text -/

/-- The parts of a text: what stands before the first `#`, the pieces behind each `#`, and
what stands behind the `|`, if there is one. -/
structure Parts (cs head : List Char) (ns : List (List Char)) (aliasName : Option (List Char)) :
    Prop where
  text : cs = head ++ marked assertionDelimiter ns ++ marked aliasDelimiter aliasName.toList
  head : assertionDelimiter ∉ head ∧ aliasDelimiter ∉ head
  names : ∀ n ∈ ns, assertionDelimiter ∉ n ∧ aliasDelimiter ∉ n
  aliasName : ∀ a ∈ aliasName,
    a ≠ [] ∧ pathDelimiter ∉ a ∧ assertionDelimiter ∉ a ∧ aliasDelimiter ∉ a

/-- Without a fault of the alias, the text has at most one `|`, and something behind it. -/
theorem exists_of_readAlias {cs : List Char} (h : (readAlias cs).2 = []) :
    ∃ p, ∃ aliasName : Option (List Char), cs = p ++ marked aliasDelimiter aliasName.toList ∧
      aliasDelimiter ∉ p ∧ ∀ a ∈ aliasName, a ≠ [] ∧ aliasDelimiter ∉ a := by
  obtain ⟨p, ps, rfl, hp, hps⟩ := exists_marked aliasDelimiter cs
  rw [readAlias, split_marked hp hps] at h
  cases ps with
  | nil => exact ⟨p, none, rfl, hp, by simp⟩
  | cons a qs =>
      cases qs with
      | nil =>
          refine ⟨p, some a, rfl, hp, fun b hb => ?_⟩
          obtain rfl : a = b := Option.mem_some_iff.1 hb
          refine ⟨fun hnil => ?_, hps a List.mem_cons_self⟩
          subst hnil
          cases h
      | cons b qs => cases h

/-- An expression whose alias trails and has no faults comes apart into `Parts`. -/
theorem exists_parts {e : String} (h : (readAlias e.toList).2 = []) (htrails : AliasTrails e) :
    ∃ head ns aliasName, Parts e.toList head ns aliasName := by
  obtain ⟨p, aliasName, htext, hp, ha⟩ := exists_of_readAlias h
  obtain ⟨head, ns, rfl, hhead, hns⟩ := exists_marked assertionDelimiter p
  obtain ⟨hheadAlias, hnsAlias⟩ := not_or.1 (mt List.mem_append.2 hp)
  refine ⟨head, ns, aliasName, htext, ⟨hhead, hheadAlias⟩, fun n hn => ⟨hns n hn, fun hl => ?_⟩,
    fun a haa => ?_⟩
  · exact hnsAlias (List.mem_flatMap.2 ⟨n, hn, List.mem_cons_of_mem _ hl⟩)
  · obtain rfl : aliasName = some a := haa
    rw [Option.toList_some, marked_singleton] at htext
    obtain ⟨hpath, hassertion⟩ := htrails _ a htext
    exact ⟨(ha a rfl).1, hpath, hassertion, (ha a rfl).2⟩

namespace Parts

variable {cs head : List Char} {ns : List (List Char)} {aliasName : Option (List Char)}

/-- The names are read from behind each `#`. -/
theorem pieces_eq (h : Parts cs head ns aliasName) : pieces cs = ns := by
  rw [h.text]
  refine pieces_written h.head.1 ?_ (before_marked (decide_eq_true rfl) _)
    (fun n hn => (h.names n hn).1) fun n hn => (h.names n hn).2
  exact not_mem_marked (by decide) fun a ha => (h.aliasName a (Option.mem_toList.1 ha)).2.2.1

/-- Segments hold neither `#` nor `|`. -/
theorem not_mem_segment (h : Parts cs head ns aliasName) {k : List Char}
    (hk : k ∈ split pathDelimiter head) : assertionDelimiter ∉ k ∧ aliasDelimiter ∉ k :=
  ⟨fun hc => h.head.1 (mem_of_mem_split hk hc), fun hc => h.head.2 (mem_of_mem_split hk hc)⟩

/-- The path is read from the text before the first `#`, if no name holds a `>`. -/
theorem path_eq (h : Parts cs head ns aliasName) (hns : ∀ n ∈ ns, pathDelimiter ∉ n) :
    path cs = split pathDelimiter head := by
  rw [h.text, List.append_assoc]
  conv_lhs => rw [← join_split pathDelimiter head]
  refine path_written (split_ne_nil _ _) (before_marked_append rfl _ (before_marked rfl _))
    (List.not_mem_append (not_mem_marked (by decide) hns) ?_)
    (fun k hk => not_mem_of_mem_split hk) fun k hk => ?_
  · exact not_mem_marked (by decide) fun a ha => (h.aliasName a (Option.mem_toList.1 ha)).2.1
  · exact isSuffixDelimiter_eq_false (h.not_mem_segment hk).1 (h.not_mem_segment hk).2

end Parts

/-! ## what the absence of faults says -/

/-- A name that denotes a check is one of the table. -/
theorem mem_table_of_lookup {n : String} {a : Assertion} (h : Assertion.lookup n = some a) :
    n ∈ Assertion.table.map Prod.fst := by
  obtain ⟨entry, hentry, -⟩ := Option.map_eq_some_iff.1 h
  have hname : entry.1 = n := by simpa using List.find?_some hentry
  exact List.mem_map.2 ⟨entry, List.mem_of_find?_eq_some hentry, hname⟩

/-- A name without fault stands in the table. -/
theorem mem_table_of_nameFault {n : String} (h : nameFault n = none) :
    n ∈ Assertion.table.map Prod.fst := by
  cases hlookup : Assertion.lookup n with
  | some a => exact mem_table_of_lookup hlookup
  | none =>
      rw [nameFault, hlookup] at h
      split at h <;> cases h

/-- Without a fault of the names, each piece behind a `#` is the name of a check. -/
theorem mem_table_of_pieces {cs : List Char} (h : (names cs).filterMap nameFault = []) :
    ∀ p ∈ pieces cs, String.ofList p ∈ Assertion.table.map Prod.fst := by
  intro p hp
  have hmem : String.ofList p ∈ names cs := mem_sortNames.2 (List.mem_map_of_mem hp)
  exact mem_table_of_nameFault (List.filterMap_eq_nil_iff.1 h _ hmem)

/-- Without a fault of the path, no segment is empty. -/
theorem ne_nil_of_pathFaults {ks : List (List Char)} (h : pathFaults ks = []) :
    ∀ k ∈ ks, k ≠ [] := by
  intro k hk hnil
  have hany : ks.any List.isEmpty = true := List.any_eq_true.2 ⟨k, hk, by simp [hnil]⟩
  rw [pathFaults, if_pos hany] at h
  cases h

/-- A text without delimiters `IsPlain`. -/
theorem isPlain_ofList {cs : List Char} (hne : cs ≠ []) (hp : pathDelimiter ∉ cs)
    (ha : assertionDelimiter ∉ cs) (hl : aliasDelimiter ∉ cs) : IsPlain (String.ofList cs) := by
  refine ⟨fun h => hne ?_, ?_⟩
  · simpa using h
  · simpa using ⟨hp, ha, hl⟩

/-! ## written forms -/

/-- An expression without faults, with nothing but the alias behind a `|`, has been written. -/
theorem exists_write_of_faults {e : String} (hfaults : faults e = []) (htrails : AliasTrails e) :
    ∃ segments names aliasName, Writable segments names aliasName ∧
      e = write segments names aliasName := by
  rw [faults, List.append_eq_nil_iff, List.append_eq_nil_iff] at hfaults
  obtain ⟨⟨hpath, hnames⟩, halias⟩ := hfaults
  obtain ⟨head, ns, aliasName, hparts⟩ := exists_parts halias htrails
  have htable := mem_table_of_pieces hnames
  rw [hparts.pieces_eq] at htable
  have hns : ∀ n ∈ ns, pathDelimiter ∉ n := fun n hn => by
    simpa using (isPlain_of_mem_table _ (htable n hn)).2.1
  have hne := ne_nil_of_pathFaults hpath
  rw [hparts.path_eq hns] at hne
  refine ⟨(split pathDelimiter head).map String.ofList, ns.map String.ofList,
    aliasName.map String.ofList, ⟨?_, ?_, ?_, ?_⟩, ?_⟩
  · simpa using split_ne_nil pathDelimiter head
  · exact List.forall_mem_map.2 fun k hk => isPlain_ofList (hne k hk) (not_mem_of_mem_split hk)
      (hparts.not_mem_segment hk).1 (hparts.not_mem_segment hk).2
  · exact List.forall_mem_map.2 htable
  · intro a h
    obtain ⟨b, hb, rfl⟩ := Option.map_eq_some_iff.1 h
    obtain ⟨hb, hbp, hba, hbl⟩ := hparts.aliasName b hb
    exact isPlain_ofList hb hbp hba hbl
  · rw [← String.toList_inj, hparts.text, toList_write]
    simp [Function.comp_def, join_split]

/-- Behind the `|` of a written form stands nothing but the alias. -/
theorem aliasTrails_write {segments names : List String} {aliasName : Option String}
    (h : Writable segments names aliasName) : AliasTrails (write segments names aliasName) := by
  obtain ⟨hseg, hname, halias⟩ := h.isPlain
  have hp : aliasDelimiter ∉ join pathDelimiter (segments.map String.toList) ++
      marked assertionDelimiter (names.map String.toList) :=
    List.not_mem_append (not_mem_join (by decide) fun k hk => (hseg k hk).2.2.2)
      (not_mem_marked (by decide) fun n hn => (hname n hn).2.2.2)
  intro before after htext
  rw [toList_write] at htext
  cases aliasName with
  | none =>
      have hmem : aliasDelimiter ∈ before ++ aliasDelimiter :: after := by simp
      rw [← htext] at hmem
      exact absurd (by simpa [marked] using hmem) hp
  | some a =>
      obtain ⟨-, hap, haa, hal⟩ := halias a.toList rfl
      rw [Option.map_some, Option.toList_some, marked_singleton] at htext
      obtain ⟨-, -, rfl⟩ := (List.append_cons_inj_of_notMem hp hal).1 htext
      exact ⟨hap, haa⟩

/-- **Grammar**: an expression that is read without faults, and has nothing but the alias
behind a `|`, is a written form: segments, names of checks, and perhaps an alias, in this
order.  Its path are exactly the segments, and its alias is exactly that alias. -/
theorem readExpression_iff_written (e : String) (t : Token) :
    readExpression e = .ok t ∧ AliasTrails e ↔
      ∃ segments names aliasName, Writable segments names aliasName ∧
        e = write segments names aliasName ∧ t = token e ∧ t.path = segments ∧
        t.aliasName = aliasName := by
  rw [readExpression_eq_ok_iff]
  constructor
  · rintro ⟨⟨hfaults, rfl⟩, htrails⟩
    obtain ⟨segments, names, aliasName, hw, rfl⟩ := exists_write_of_faults hfaults htrails
    refine ⟨segments, names, aliasName, hw, rfl, rfl, ?_, ?_⟩ <;> rw [token_write hw]
  · rintro ⟨segments, names, aliasName, hw, rfl, rfl, -, -⟩
    exact ⟨⟨faults_write hw, rfl⟩, aliasTrails_write hw⟩

/-- A `|` on an earlier segment, and a `#` behind the `|`: both expressions are read without
faults, and neither is a written form.  The first loses its segment `a` and takes the last
segment into the alias; the second reads `int` as a check and as a part of the alias. -/
theorem readExpression_misplaced :
    readExpression "a|x>b" = .ok ⟨"a|x>b", ["b"], [], some "x>b"⟩ ∧
    readExpression "a|x#int" = .ok ⟨"a|x#int", ["a"], [.integer], some "x#int"⟩ ∧
    ∀ segments names aliasName, Writable segments names aliasName →
      write segments names aliasName ≠ "a|x>b" ∧ write segments names aliasName ≠ "a|x#int" := by
  refine ⟨readExpression_eq_ok_iff.2 ⟨by decide, by rfl⟩,
    readExpression_eq_ok_iff.2 ⟨by decide, by rfl⟩, fun segments names aliasName hw => ?_⟩
  have htrails := aliasTrails_write hw
  refine ⟨fun h => ?_, fun h => ?_⟩
  · rw [h] at htrails
    exact absurd (htrails ['a'] ['x', '>', 'b'] (by decide)).1 (by decide)
  · rw [h] at htrails
    exact absurd (htrails ['a'] ['x', '#', 'i', 'n', 't'] (by decide)).2 (by decide)

end Extraction.Transition.Expression
