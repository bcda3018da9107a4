import Extraction.Proofs.Transition.Meaning

/-!
# Extraction.Proofs.Transition.Written

The written form of a transition and what is read from it:

```
k1>…>kn#name1#…#namem|alias
```

The three scans of the reader go over the whole text, so each of them has to pass over
what the other two are after.  They do so because no part holds a delimiter: a scan cuts
the text at its own delimiters, and what the others wrote sticks to the last piece, from
which it is cut off again.

* `split_append_of_not_mem` — a text without the delimiter sticks to the last piece;
* `split_marked` — pieces that follow a delimiter each are cut apart again;
* `path_written`, `pieces_written`, `readAlias_written` — what each scan reads;
* `token_write`, `faults_write` — the token of the written form, and that it has no fault.
-/

namespace Extraction.Transition.Expression

open Text

/-! ## the written form -/

/-- A text that can stand between delimiters: not empty and free of all three. -/
def IsPlain (s : String) : Prop :=
  s ≠ "" ∧ pathDelimiter ∉ s.toList ∧ assertionDelimiter ∉ s.toList ∧ aliasDelimiter ∉ s.toList

instance (s : String) : Decidable (IsPlain s) := inferInstanceAs (Decidable (_ ∧ _))

/-- The transition with the segments of a path, assertion names and perhaps an alias. -/
def write (segments names : List String) (aliasName : Option String) : String :=
  String.intercalate ">" segments ++ String.join (names.map fun n => "#" ++ n) ++
    String.join (aliasName.toList.map fun a => "|" ++ a)

example : write ["a", "b"] ["int", "positive"] (some "c") = "a>b#int#positive|c" := by decide

/-- Parts that a transition can be written from. -/
structure Writable (segments names : List String) (aliasName : Option String) : Prop where
  ne_nil : segments ≠ []
  segments : ∀ s ∈ segments, IsPlain s
  names : ∀ n ∈ names, n ∈ Assertion.table.map Prod.fst
  aliasName : ∀ a ∈ aliasName, IsPlain a

/-- The names of assertions can stand between delimiters. -/
theorem isPlain_of_mem_table : ∀ n ∈ Assertion.table.map Prod.fst, IsPlain n := by decide

/-! ## cutting -/

/-- Pieces with a delimiter before each. -/
def marked (d : Char) (ps : List (List Char)) : List Char := ps.flatMap fun p => d :: p

/-- `marked` adds no character but its own. -/
theorem not_mem_marked {c d : Char} {ps : List (List Char)} (hcd : c ≠ d)
    (h : ∀ p ∈ ps, c ∉ p) : c ∉ marked d ps := by
  simp only [marked, List.mem_flatMap, List.mem_cons, not_exists, not_and, not_or]
  exact fun p hp => ⟨hcd, h p hp⟩

/-- `join` adds no character but its delimiter. -/
theorem not_mem_join {c d : Char} {ps : List (List Char)} (hcd : c ≠ d)
    (h : ∀ p ∈ ps, c ∉ p) : c ∉ join d ps := by
  induction ps with
  | nil => simp [join]
  | cons p ps ih =>
      have hp : c ∉ p := h p List.mem_cons_self
      have hps : c ∉ join d ps := ih fun q hq => h q (List.mem_cons_of_mem p hq)
      cases ps with
      | nil => simpa [join] using hp
      | cons q qs => simp [join, hp, hcd, hps]

/-- `split` takes apart what `marked` has put together. -/
theorem split_marked {d : Char} {p : List Char} {ps : List (List Char)} (hp : d ∉ p)
    (hps : ∀ q ∈ ps, d ∉ q) : split d (p ++ marked d ps) = p :: ps := by
  induction ps generalizing p with
  | nil => simpa [marked] using split_of_not_mem hp
  | cons q qs ih =>
      have hq : d ∉ q := hps q List.mem_cons_self
      have hqs : split d (q ++ marked d qs) = q :: qs :=
        ih hq fun r hr => hps r (List.mem_cons_of_mem q hr)
      calc
        split d (p ++ marked d (q :: qs)) = split d (p ++ d :: (q ++ marked d qs)) := rfl
        _ = p :: split d (q ++ marked d qs) := split_append_delimiter hp _
        _ = p :: q :: qs := by rw [hqs]

theorem mapLast_cons_of_ne_nil {α : Type} (f : α → α) (x : α) {xs : List α} (h : xs ≠ []) :
    mapLast f (x :: xs) = x :: mapLast f xs := by
  cases xs with
  | nil => contradiction
  | cons y ys => rfl

theorem mapLast_eq_nil_iff {α : Type} {f : α → α} {xs : List α} : mapLast f xs = [] ↔ xs = [] := by
  cases xs with
  | nil => simp [mapLast]
  | cons x xs => cases xs <;> simp [mapLast]

/-- Changing the last text twice is one change of it. -/
theorem mapLast_mapLast {α : Type} (f g : α → α) (xs : List α) :
    mapLast g (mapLast f xs) = mapLast (fun x => g (f x)) xs := by
  induction xs with
  | nil => rfl
  | cons x xs ih =>
      by_cases h : xs = []
      · simp [h, mapLast]
      · have h' : mapLast f xs ≠ [] := fun he => h (mapLast_eq_nil_iff.1 he)
        rw [mapLast_cons_of_ne_nil f x h, mapLast_cons_of_ne_nil g x h', ih,
          mapLast_cons_of_ne_nil _ x h]

/-- A change that leaves each text as it is leaves all of them. -/
theorem mapLast_eq_self {α : Type} {f : α → α} {xs : List α} (h : ∀ x ∈ xs, f x = x) :
    mapLast f xs = xs := by
  induction xs with
  | nil => rfl
  | cons x xs ih =>
      have hx : f x = x := h x List.mem_cons_self
      by_cases hxs : xs = []
      · simp [hxs, mapLast, hx]
      · rw [mapLast_cons_of_ne_nil f x hxs, ih fun y hy => h y (List.mem_cons_of_mem x hy)]

/-- Without the first text the last one is changed all the same. -/
theorem drop_one_mapLast_cons {α : Type} (f : α → α) (x : α) (xs : List α) :
    (mapLast f (x :: xs)).drop 1 = mapLast f xs := by
  cases xs <;> rfl

/-- A text without the delimiter sticks to the last piece of what stands before it. -/
theorem split_append_of_not_mem {d : Char} {q : List Char} (hq : d ∉ q) (cs : List Char) :
    split d (cs ++ q) = mapLast (fun p => p ++ q) (split d cs) := by
  induction cs with
  | nil => simpa [split, mapLast] using split_of_not_mem hq
  | cons c cs ih =>
      by_cases hc : c = d
      · subst hc
        rw [List.cons_append, split_delimiter, split_delimiter, ih,
          mapLast_cons_of_ne_nil _ _ (split_ne_nil c cs)]
      · obtain ⟨p, ps, hs⟩ := List.exists_cons_of_ne_nil (split_ne_nil d cs)
        rw [split_cons hc hs, List.cons_append]
        rw [hs] at ih
        cases ps with
        | nil => exact split_cons hc ih
        | cons r rs => exact split_cons hc ih

/-! ## the scans -/

variable {ks ns as : List (List Char)}

/-- `before` keeps what holds no delimiter. -/
theorem before_append {isDelimiter : Char → Bool} {cs : List Char}
    (h : ∀ c ∈ cs, isDelimiter c = false) (rest : List Char) :
    before isDelimiter (cs ++ rest) = cs ++ before isDelimiter rest := by
  have hpass : ∀ c ∈ cs, (!isDelimiter c) = true := fun c hc => by rw [h c hc, Bool.not_false]
  rw [before, List.takeWhile_append_of_pos hpass, ← before]

/-- Nothing stands before the first delimiter of pieces that follow one each. -/
theorem before_marked_append {isDelimiter : Char → Bool} {d : Char} (hd : isDelimiter d = true)
    (ps : List (List Char)) {rest : List Char} (hrest : before isDelimiter rest = []) :
    before isDelimiter (marked d ps ++ rest) = [] := by
  cases ps with
  | nil => exact hrest
  | cons p ps => simp [marked, before, hd]

/-- `before` keeps nothing behind a delimiter. -/
theorem before_marked {isDelimiter : Char → Bool} {d : Char} (hd : isDelimiter d = true)
    (ps : List (List Char)) : before isDelimiter (marked d ps) = [] := by
  rw [← List.append_nil (marked d ps)]
  exact before_marked_append hd ps rfl

theorem isSuffixDelimiter_eq_false {cs : List Char} (ha : assertionDelimiter ∉ cs)
    (hl : aliasDelimiter ∉ cs) : ∀ c ∈ cs, isSuffixDelimiter c = false := by
  intro c hc
  have hca : c ≠ assertionDelimiter := fun h => ha (h ▸ hc)
  have hcl : c ≠ aliasDelimiter := fun h => hl (h ▸ hc)
  simp [isSuffixDelimiter, hca, hcl]

/-- Segments that carry no suffix are kept, and what is cut off the last one is lost. -/
theorem keys_mapLast {q : List Char} (hq : before isSuffixDelimiter q = [])
    (hks : ∀ k ∈ ks, ∀ c ∈ k, isSuffixDelimiter c = false) :
    keys (mapLast (fun p => p ++ q) ks) = ks := by
  induction ks with
  | nil => rfl
  | cons k ks ih =>
      have hk := hks k List.mem_cons_self
      have hany : k.any isSuffixDelimiter = false := by simpa using hk
      have htail := ih fun l hl => hks l (List.mem_cons_of_mem k hl)
      cases ks with
      | nil => simp [mapLast, keys, key, before_append hk, hq]
      | cons l ls =>
          obtain ⟨m, ms, hm⟩ := List.exists_cons_of_ne_nil
            (mt (mapLast_eq_nil_iff (f := fun p => p ++ q)).1 (List.cons_ne_nil l ls))
          rw [mapLast_cons_of_ne_nil _ _ (List.cons_ne_nil l ls), hm, keys, if_neg (by simp [hany])]
          · rw [← hm, htail]
          · exact List.cons_ne_nil m ms

/-- The path is read from before the suffixes. -/
theorem path_written {q : List Char} (hne : ks ≠ []) (hq : before isSuffixDelimiter q = [])
    (hqp : pathDelimiter ∉ q) (hks : ∀ k ∈ ks, pathDelimiter ∉ k)
    (hsuffix : ∀ k ∈ ks, ∀ c ∈ k, isSuffixDelimiter c = false) :
    path (join pathDelimiter ks ++ q) = ks := by
  rw [path, split_append_of_not_mem hqp, split_join hne hks, keys_mapLast hq hsuffix]

/-- The names are read from between the path and the alias. -/
theorem pieces_written {p q : List Char} (hp : assertionDelimiter ∉ p)
    (hq : assertionDelimiter ∉ q) (hcut : before (fun c => c = aliasDelimiter) q = [])
    (hns : ∀ n ∈ ns, assertionDelimiter ∉ n) (hnl : ∀ n ∈ ns, aliasDelimiter ∉ n) :
    pieces (p ++ marked assertionDelimiter ns ++ q) = ns := by
  rw [pieces, split_append_of_not_mem hq, split_marked hp hns, drop_one_mapLast_cons,
    mapLast_mapLast]
  refine mapLast_eq_self fun n hn => ?_
  have hpass : ∀ c ∈ n, decide (c = aliasDelimiter) = false := by
    intro c hc
    exact decide_eq_false fun h => hnl n hn (h ▸ hc)
  rw [before_append hpass, hcut, List.append_nil]

/-- The alias is read from behind everything else. -/
theorem readAlias_written {p : List Char} {aliasName : Option (List Char)}
    (hp : aliasDelimiter ∉ p) (ha : ∀ a ∈ aliasName, a ≠ [] ∧ aliasDelimiter ∉ a) :
    readAlias (p ++ marked aliasDelimiter aliasName.toList) =
      (aliasName.map String.ofList, []) := by
  have hsplit : split aliasDelimiter (p ++ marked aliasDelimiter aliasName.toList) =
      p :: aliasName.toList :=
    split_marked hp fun a hm => (ha a (Option.mem_toList.1 hm)).2
  rw [readAlias, hsplit]
  cases aliasName with
  | none => rfl
  | some a =>
      have hne : a.isEmpty = false := by simpa using (ha a rfl).1
      simp [hne]

/-! ## the token of the written form -/

theorem join_eq_intercalate (d : Char) (ps : List (List Char)) :
    join d ps = [d].intercalate ps := by
  induction ps with
  | nil => rfl
  | cons p ps ih =>
      cases ps with
      | nil => simp [join, List.intercalate]
      | cons q qs => rw [join, ih, List.intercalate_cons_cons, List.append_assoc]; rfl

/-- Texts with a delimiter before each have the characters of `marked`. -/
theorem toList_join_map (d : Char) (ss : List String) :
    (String.join (ss.map fun s => String.singleton d ++ s)).toList =
      marked d (ss.map String.toList) := by
  simp [marked, List.flatMap_map]

/-- The characters that `write` puts together: the path, the names and the alias. -/
theorem toList_write (segments names : List String) (aliasName : Option String) :
    (write segments names aliasName).toList =
      join pathDelimiter (segments.map String.toList) ++
        marked assertionDelimiter (names.map String.toList) ++
        marked aliasDelimiter (aliasName.map String.toList).toList := by
  have hnames := toList_join_map assertionDelimiter names
  have halias := toList_join_map aliasDelimiter aliasName.toList
  rw [Option.toList_map, ← halias, ← hnames, join_eq_intercalate]
  simp only [write, String.toList_append, String.toList_intercalate]
  rfl

variable {segments names : List String} {aliasName : Option String}

/-- All parts of a written form are plain. -/
theorem Writable.isPlain (h : Writable segments names aliasName) :
    (∀ p ∈ segments.map String.toList, p ≠ [] ∧ pathDelimiter ∉ p ∧
      assertionDelimiter ∉ p ∧ aliasDelimiter ∉ p) ∧
    (∀ p ∈ names.map String.toList, p ≠ [] ∧ pathDelimiter ∉ p ∧
      assertionDelimiter ∉ p ∧ aliasDelimiter ∉ p) ∧
    (∀ p ∈ aliasName.map String.toList, p ≠ [] ∧ pathDelimiter ∉ p ∧
      assertionDelimiter ∉ p ∧ aliasDelimiter ∉ p) := by
  have hplain : ∀ s, IsPlain s → s.toList ≠ [] ∧ pathDelimiter ∉ s.toList ∧
      assertionDelimiter ∉ s.toList ∧ aliasDelimiter ∉ s.toList :=
    fun s hs => ⟨mt String.toList_eq_nil_iff.1 hs.1, hs.2⟩
  refine ⟨List.forall_mem_map.2 fun s hs => hplain s (h.segments s hs),
    List.forall_mem_map.2 fun n hn => hplain n (isPlain_of_mem_table n (h.names n hn)),
    fun p hp => ?_⟩
  obtain ⟨a, ha, rfl⟩ := Option.map_eq_some_iff.1 hp
  exact hplain a (h.aliasName a ha)

/-- The path of a `Writable` expression is read back. -/
theorem path_write (h : Writable segments names aliasName) :
    path (write segments names aliasName).toList = segments.map String.toList := by
  obtain ⟨hseg, hname, halias⟩ := h.isPlain
  rw [toList_write, List.append_assoc]
  refine path_written (by simpa using h.ne_nil) ?_ ?_ (fun k hk => (hseg k hk).2.1)
    fun k hk => isSuffixDelimiter_eq_false (hseg k hk).2.2.1 (hseg k hk).2.2.2
  · exact before_marked_append rfl _ (before_marked rfl _)
  · refine List.not_mem_append ?_ ?_
    · exact not_mem_marked (by decide) fun n hn => (hname n hn).2.1
    · exact not_mem_marked (by decide) fun a ha => (halias a (Option.mem_toList.1 ha)).2.1

/-- The names of a `Writable` expression are read back, sorted and each once. -/
theorem names_write (h : Writable segments names aliasName) :
    Expression.names (write segments names aliasName).toList = sortNames names := by
  obtain ⟨hseg, hname, halias⟩ := h.isPlain
  have hpieces : pieces (write segments names aliasName).toList = names.map String.toList := by
    rw [toList_write]
    refine pieces_written ?_ ?_ ?_ (fun n hn => (hname n hn).2.2.1)
      fun n hn => (hname n hn).2.2.2
    · exact not_mem_join (by decide) fun k hk => (hseg k hk).2.2.1
    · exact not_mem_marked (by decide) fun a ha => (halias a (Option.mem_toList.1 ha)).2.2.1
    · exact before_marked (decide_eq_true rfl) _
  simp [Expression.names, hpieces]

/-- The alias of a `Writable` expression is read back, without faults. -/
theorem readAlias_write (h : Writable segments names aliasName) :
    readAlias (write segments names aliasName).toList = (aliasName, []) := by
  obtain ⟨hseg, hname, halias⟩ := h.isPlain
  have hbefore : aliasDelimiter ∉ join pathDelimiter (segments.map String.toList) ++
      marked assertionDelimiter (names.map String.toList) :=
    List.not_mem_append (not_mem_join (by decide) fun k hk => (hseg k hk).2.2.2)
      (not_mem_marked (by decide) fun n hn => (hname n hn).2.2.2)
  rw [toList_write, readAlias_written hbefore fun a ha => ⟨(halias a ha).1, (halias a ha).2.2.2⟩]
  simp [Function.comp_def]

/-- The token that is read from the written form has its segments, its alias, and the checks
that its names denote. -/
theorem token_write (h : Writable segments names aliasName) :
    token (write segments names aliasName) =
      { expression := write segments names aliasName
        path := segments
        assertions := resolve [] (sortNames names)
        aliasName := aliasName } := by
  simp [token, path_write h, names_write h, readAlias_write h, Function.comp_def]

/-- A name of the table denotes a check. -/
theorem lookup_isSome_of_mem_table {n : String} (h : n ∈ Assertion.table.map Prod.fst) :
    (Assertion.lookup n).isSome = true := by
  obtain ⟨e, he, rfl⟩ := List.mem_map.1 h
  rw [Assertion.lookup, Option.isSome_map, List.find?_isSome]
  exact ⟨e, he, beq_self_eq_true e.1⟩

/-- The written form has no fault: no segment is empty, every name denotes a check, and there
is at most one alias, which is not empty. -/
theorem faults_write (h : Writable segments names aliasName) :
    faults (write segments names aliasName) = [] := by
  have hpath : pathFaults (segments.map String.toList) = [] := by
    rw [pathFaults, if_neg]
    simp only [List.any_eq_true, List.isEmpty_iff, not_exists, not_and]
    exact fun k hk => (h.isPlain.1 k hk).1
  have hnames : (sortNames names).filterMap nameFault = [] := by
    rw [List.filterMap_eq_nil_iff]
    intro n hn
    have hmem : n ∈ Assertion.table.map Prod.fst := h.names n (mem_sortNames.1 hn)
    have hlookup : (Assertion.lookup n).isNone = false := by
      simpa using lookup_isSome_of_mem_table hmem
    rw [nameFault, if_neg (isPlain_of_mem_table n hmem).1, if_neg (by simp [hlookup])]
  simp only [faults, path_write h, names_write h, readAlias_write h, hpath, hnames]
  rfl

end Extraction.Transition.Expression
