import Extraction.Proofs.Transition.Grammar
import Mathlib.Data.List.Sort
import Mathlib.Tactic.Tauto

/-!
# Extraction.Proofs.Transition.Faults

Which faults are told of an expression, how often, and in which order.

The three scans of the reader each have their own faults.  Sorted names without repetition
make the faults of names complete and free of duplicates, and put the empty name, which is
the least one, in front:

* `mem_pieces_iff` — the names that follow each `#`, told by where they stand in the text;
* `filterMap_nameFault` — the empty name first, then the unknown names in their order;
* `readAlias_faults` — the fault of the alias, told by the number of `|` and the last character;
* `path_suffixed`, `pieces_suffixed`, `readAlias_append` — what names behind a text change;
* `messages_spec` — the messages of an expression, and what they do not depend on.
-/

namespace Extraction.Transition.Expression

open Text

/-! ## the names of a text -/

/-- `p` is a name of a text: it stands between two `#` with none between them, or it is what
stands behind the last `#`, up to the first `|` there. -/
inductive NameOf (cs : List Char) : List Char → Prop
  | inner {a p b : List Char} : cs = a ++ assertionDelimiter :: p ++ assertionDelimiter :: b →
      assertionDelimiter ∉ p → NameOf cs p
  | last {a q : List Char} : cs = a ++ assertionDelimiter :: q → assertionDelimiter ∉ q →
      NameOf cs (before (fun c => c = aliasDelimiter) q)

/-- The pieces before a delimiter and those behind it. -/
theorem split_append (d : Char) (cs ds : List Char) :
    split d (cs ++ d :: ds) = split d cs ++ split d ds := by
  induction cs with
  | nil => rw [List.nil_append, split_delimiter]; rfl
  | cons c cs ih =>
      rw [List.cons_append]
      by_cases hc : c = d
      · subst hc
        rw [split_delimiter, split_delimiter, ih, List.cons_append]
      · obtain ⟨p, ps, hs⟩ := List.exists_cons_of_ne_nil (split_ne_nil d cs)
        rw [hs, List.cons_append] at ih
        rw [split_cons hc ih, split_cons hc hs, List.cons_append]

/-- Pieces that follow a delimiter each come behind those of the text before them. -/
theorem split_append_marked {d : Char} {ps : List (List Char)} (hps : ∀ p ∈ ps, d ∉ p)
    (cs : List Char) : split d (cs ++ marked d ps) = split d cs ++ ps := by
  cases ps with
  | nil => simp [marked]
  | cons p ps =>
      have hp : d ∉ p := hps p List.mem_cons_self
      have hrest : ∀ q ∈ ps, d ∉ q := fun q hq => hps q (List.mem_cons_of_mem p hq)
      have hmarked : marked d (p :: ps) = d :: (p ++ marked d ps) := rfl
      rw [hmarked, split_append, split_marked hp hrest]

/-- `mapLast` changes the last text behind others. -/
theorem mapLast_append_of_ne_nil {α : Type} (f : α → α) (xs : List α) {ys : List α} (h : ys ≠ []) :
    mapLast f (xs ++ ys) = xs ++ mapLast f ys := by
  induction xs with
  | nil => rfl
  | cons x xs ih =>
      rw [List.cons_append, mapLast_cons_of_ne_nil f x (by simp [h]), ih, List.cons_append]

/-- `mapLast` changes the last text and no other. -/
theorem mapLast_concat {α : Type} (f : α → α) (xs : List α) (x : α) :
    mapLast f (xs ++ [x]) = xs ++ [f x] :=
  mapLast_append_of_ne_nil f xs (List.cons_ne_nil x [])

/-- The names are read from the pieces behind each `#`. -/
theorem pieces_append_marked {h : List Char} {ps : List (List Char)} (hh : assertionDelimiter ∉ h)
    (hps : ∀ p ∈ ps, assertionDelimiter ∉ p) :
    pieces (h ++ marked assertionDelimiter ps) =
      mapLast (before fun c => c = aliasDelimiter) ps := by
  rw [pieces, split_marked hh hps]
  rfl

/-- Every piece is a name: an inner one up to the next `#`, the last one up to a `|`. -/
theorem nameOf_of_mem_pieces {p cs : List Char} (hp : p ∈ pieces cs) : NameOf cs p := by
  obtain ⟨h, ps, rfl, hh, hps⟩ := exists_marked assertionDelimiter cs
  rw [pieces_append_marked hh hps] at hp
  rcases List.eq_nil_or_concat ps with rfl | ⟨qs, q, rfl⟩
  · cases hp
  · rw [List.concat_eq_append] at hp hps ⊢
    have hq : assertionDelimiter ∉ q := hps q (by simp)
    have htext : h ++ marked assertionDelimiter (qs ++ [q]) =
        (h ++ marked assertionDelimiter qs) ++ assertionDelimiter :: q := by simp [marked]
    rw [mapLast_concat, List.mem_append, List.mem_singleton] at hp
    rcases hp with hp | rfl
    · obtain ⟨as, bs, rfl⟩ := List.append_of_mem hp
      refine .inner (a := h ++ marked assertionDelimiter as)
        (b := (marked assertionDelimiter (bs ++ [q])).tail) ?_ (hps p (by simp))
      cases bs <;> simp [marked]
    · exact .last htext hq

/-- Every name is a piece. -/
theorem NameOf.mem_pieces {p cs : List Char} (h : NameOf cs p) : p ∈ pieces cs := by
  cases h with
  | @inner a p b htext hp =>
      obtain ⟨q, qs, ha⟩ := List.exists_cons_of_ne_nil (split_ne_nil assertionDelimiter a)
      have hsplit : split assertionDelimiter cs =
          q :: (qs ++ p :: split assertionDelimiter b) := by
        rw [htext, List.append_assoc, List.cons_append, split_append, split_append_delimiter hp, ha,
          List.cons_append]
      rw [pieces, hsplit, List.drop_one, List.tail_cons,
        mapLast_append_of_ne_nil _ _ (List.cons_ne_nil _ _),
        mapLast_cons_of_ne_nil _ _ (split_ne_nil _ _)]
      simp
  | @last a q htext hq =>
      obtain ⟨r, rs, ha⟩ := List.exists_cons_of_ne_nil (split_ne_nil assertionDelimiter a)
      have hsplit : split assertionDelimiter cs = r :: (rs ++ [q]) := by
        rw [htext, split_append, split_of_not_mem hq, ha, List.cons_append]
      rw [pieces, hsplit, List.drop_one, List.tail_cons, mapLast_concat]
      simp

/-- `pieces` are the names that `NameOf` describes, in the order of the text. -/
theorem mem_pieces_iff {p cs : List Char} : p ∈ pieces cs ↔ NameOf cs p :=
  ⟨nameOf_of_mem_pieces, NameOf.mem_pieces⟩

instance (cs p : List Char) : Decidable (NameOf cs p) := decidable_of_iff _ mem_pieces_iff

/-! ## the faults of names -/

/-- `names` are the same names, without their order and repetitions. -/
theorem mem_names_iff {e n : String} : n ∈ names e.toList ↔ NameOf e.toList n.toList := by
  rw [names, mem_sortNames, List.mem_map, ← mem_pieces_iff]
  constructor
  · rintro ⟨p, hp, rfl⟩
    simpa using hp
  · exact fun hn => ⟨n.toList, hn, String.ofList_toList⟩

/-- `lookup` knows the names of the table and no others. -/
theorem lookup_eq_none_iff {n : String} :
    Assertion.lookup n = none ↔ n ∉ Assertion.table.map Prod.fst := by
  constructor
  · intro hn hmem
    have hsome := lookup_isSome_of_mem_table hmem
    rw [hn] at hsome
    cases hsome
  · intro hn
    cases hlookup : Assertion.lookup n with
    | none => rfl
    | some a => exact absurd (mem_table_of_lookup hlookup) hn

/-- The only fault of a name that is not empty is that it is unknown. -/
theorem nameFault_of_ne {n : String} (h : n ≠ "") :
    nameFault n = if Assertion.lookup n = none then some (.unknownAssertion n) else none := by
  simp [nameFault, h]

/-- Names that are not empty have faults just where they are unknown. -/
theorem filterMap_nameFault_of_ne {ns : List String} (h : ∀ n ∈ ns, n ≠ "") :
    ns.filterMap nameFault =
      (ns.filter fun n => Assertion.lookup n = none).map .unknownAssertion := by
  induction ns with
  | nil => rfl
  | cons n ns ih =>
      have htail := ih fun m hm => h m (List.mem_cons_of_mem n hm)
      have hn := nameFault_of_ne (h n List.mem_cons_self)
      by_cases hlookup : Assertion.lookup n = none
      · rw [if_pos hlookup] at hn
        rw [List.filterMap_cons_some hn, htail, List.filter_cons_of_pos (by simpa using hlookup),
          List.map_cons]
      · rw [if_neg hlookup] at hn
        rw [List.filterMap_cons_none hn, htail, List.filter_cons_of_neg (by simpa using hlookup)]

/-- No name is less than the empty one. -/
theorem not_lt_empty (n : String) : ¬ n < "" := List.not_lt_nil n.toList

/-- No text is smaller than the empty one. -/
theorem ne_empty_of_lt {m n : String} (h : m < n) : n ≠ "" := by
  rintro rfl
  exact not_lt_empty m h

/-- The faults of increasing names: the empty name comes first, and only once. -/
theorem filterMap_nameFault {ns : List String} (h : ns.Pairwise (· < ·)) :
    ns.filterMap nameFault = (if "" ∈ ns then [.emptyAssertion] else []) ++
      (ns.filter fun n => n ≠ "" ∧ Assertion.lookup n = none).map .unknownAssertion := by
  cases ns with
  | nil => rfl
  | cons n ns =>
      obtain ⟨hfirst, -⟩ := List.pairwise_cons.1 h
      have hrest : ∀ m ∈ ns, m ≠ "" := fun m hm => ne_empty_of_lt (hfirst m hm)
      have hunknown : (ns.filter fun m => m ≠ "" ∧ Assertion.lookup m = none) =
          ns.filter fun m => Assertion.lookup m = none :=
        List.filter_congr fun m hm => by simp [hrest m hm]
      by_cases hn : n = ""
      · subst hn
        have hempty : nameFault "" = some .emptyAssertion := rfl
        rw [List.filterMap_cons_some hempty, if_pos List.mem_cons_self,
          List.filter_cons_of_neg (by simp), hunknown, filterMap_nameFault_of_ne hrest]
        rfl
      · have hall : ∀ m ∈ n :: ns, m ≠ "" := List.forall_mem_cons.2 ⟨hn, hrest⟩
        have hnot : "" ∉ n :: ns := fun hm => hall "" hm rfl
        rw [filterMap_nameFault_of_ne hall, if_neg hnot, List.nil_append]
        exact congrArg _ (List.filter_congr fun m hm => by simp [hall m hm])

/-! ## the fault of the alias -/

/-- The faults of an alias tell how many `|` there are, and whether anything stands behind a
single one. -/
theorem readAlias_faults (cs : List Char) :
    (readAlias cs).2 =
      if 2 ≤ cs.count aliasDelimiter then [.severalAliases]
      else if cs.count aliasDelimiter = 1 ∧ cs.getLast? = some aliasDelimiter then [.emptyAlias]
      else [] := by
  obtain ⟨p, ps, rfl, hp, hps⟩ := exists_marked aliasDelimiter cs
  have hsplit := split_marked hp hps
  have hcount := length_split aliasDelimiter (p ++ marked aliasDelimiter ps)
  rw [hsplit, List.length_cons, Nat.add_right_cancel_iff] at hcount
  rw [readAlias, hsplit, ← hcount]
  cases ps with
  | nil => rfl
  | cons a qs =>
      cases qs with
      | cons b qs => simp
      | nil =>
          have ha : aliasDelimiter ∉ a := hps a List.mem_cons_self
          rcases List.eq_nil_or_concat a with rfl | ⟨as, c, rfl⟩
          · simp [marked]
          · have hc : c ≠ aliasDelimiter := fun h => ha (by simp [h])
            have hlast : (p ++ marked aliasDelimiter [as.concat c]).getLast? = some c := by
              rw [marked_singleton, List.concat_eq_append, ← List.cons_append, ← List.append_assoc,
                List.getLast?_concat]
            rw [hlast]
            simp [hc]

/-! ## names behind a text -/

/-- Nothing stands before the first delimiter of `q`, so it is cut off whatever it sticks to. -/
theorem before_append_of_before_eq_nil {isDelimiter : Char → Bool} {q : List Char}
    (hq : before isDelimiter q = []) (cs : List Char) :
    before isDelimiter (cs ++ q) = before isDelimiter cs := by
  induction cs with
  | nil => exact hq
  | cons c cs ih =>
      simp only [before, List.cons_append, List.takeWhile_cons] at ih ⊢
      cases isDelimiter c with
      | true => rfl
      | false => simp [ih]

/-- A segment before the last one is among the `keys` only without suffixes. -/
theorem keys_cons_of_ne_nil (k : List Char) {ks : List (List Char)} (h : ks ≠ []) :
    keys (k :: ks) = if k.any isSuffixDelimiter then keys ks else k :: keys ks := by
  cases ks with
  | nil => contradiction
  | cons l ls => rfl

/-- What the last piece before others carries makes no difference to the path: a suffix is cut
off the last segment, and an earlier segment with a suffix is left out. -/
theorem keys_mapLast_append {q q' : List Char} (ks ts : List (List Char)) (hks : ks ≠ [])
    (hq : before isSuffixDelimiter q = []) (hq' : before isSuffixDelimiter q' = [])
    (hts : ts ≠ [] → q.any isSuffixDelimiter = true ∧ q'.any isSuffixDelimiter = true) :
    keys (mapLast (fun p => p ++ q) ks ++ ts) = keys (mapLast (fun p => p ++ q') ks ++ ts) := by
  induction ks with
  | nil => contradiction
  | cons k ks ih =>
      by_cases hnil : ks = []
      · subst hnil
        cases ts with
        | nil => simp [mapLast, keys, key, before_append_of_before_eq_nil, hq, hq']
        | cons t ts =>
            obtain ⟨hany, hany'⟩ := hts (List.cons_ne_nil t ts)
            simp [mapLast, keys, List.any_append, hany, hany']
      · have hne : ∀ r, mapLast (fun p => p ++ r) ks ++ ts ≠ [] := fun r h =>
          hnil (mapLast_eq_nil_iff.1 (List.append_eq_nil_iff.1 h).1)
        rw [mapLast_cons_of_ne_nil _ _ hnil, mapLast_cons_of_ne_nil _ _ hnil, List.cons_append,
          List.cons_append, keys_cons_of_ne_nil _ (hne q), keys_cons_of_ne_nil _ (hne q'), ih hnil]

section

variable {head tail : List Char} {ns : List (List Char)}

/-- `|` stands, if at all, at the front of what follows the names. -/
theorem before_eq_nil_of_head? {isDelimiter : Char → Bool} (hd : isDelimiter aliasDelimiter = true)
    (htail : tail = [] ∨ tail.head? = some aliasDelimiter) : before isDelimiter tail = [] := by
  cases tail with
  | nil => rfl
  | cons c cs =>
      obtain rfl : c = aliasDelimiter := by simpa using htail
      simp [before, hd]

/-- Names behind a text do not change its path. -/
theorem path_suffixed (hns : ∀ n ∈ ns, pathDelimiter ∉ n)
    (htail : tail = [] ∨ tail.head? = some aliasDelimiter) :
    path (head ++ marked assertionDelimiter ns ++ tail) = path (head ++ tail) := by
  obtain ⟨q, ts, rfl, hq, hts⟩ := exists_marked pathDelimiter tail
  have hfront : q = [] ∧ ts = [] ∨ q.head? = some aliasDelimiter := by
    cases q with
    | cons c q => simpa using htail
    | nil => cases ts <;> simp [marked, pathDelimiter, aliasDelimiter] at htail ⊢
  have hbefore : before isSuffixDelimiter q = [] :=
    before_eq_nil_of_head? rfl (hfront.imp_left And.left)
  have hany : ts ≠ [] → q.any isSuffixDelimiter = true := fun hne => by
    obtain ⟨r, rfl⟩ := List.head?_eq_some_iff.1 (hfront.resolve_left fun h => hne h.2)
    rfl
  have hnames : pathDelimiter ∉ marked assertionDelimiter ns ++ q :=
    List.not_mem_append (not_mem_marked (by decide) hns) hq
  rw [path, path, ← List.append_assoc, ← List.append_assoc, split_append_marked hts,
    split_append_marked hts, List.append_assoc, split_append_of_not_mem hnames,
    split_append_of_not_mem hq]
  refine keys_mapLast_append _ _ (split_ne_nil _ _) (before_marked_append rfl ns hbefore) hbefore
    fun hne => ⟨?_, hany hne⟩
  rw [List.any_append, hany hne, Bool.or_true]

/-- The names behind a text are read after those that it holds itself. -/
theorem pieces_suffixed (hhead : aliasDelimiter ∉ head)
    (hns : ∀ n ∈ ns, assertionDelimiter ∉ n ∧ aliasDelimiter ∉ n)
    (htail : tail = [] ∨ tail.head? = some aliasDelimiter) (htails : assertionDelimiter ∉ tail) :
    pieces (head ++ marked assertionDelimiter ns ++ tail) =
      (split assertionDelimiter head).drop 1 ++ ns := by
  obtain ⟨p, ps, hs⟩ := List.exists_cons_of_ne_nil (split_ne_nil assertionDelimiter head)
  rw [pieces, split_append_of_not_mem htails, split_append_marked fun n hn => (hns n hn).1, hs,
    List.cons_append, drop_one_mapLast_cons, mapLast_mapLast]
  refine mapLast_eq_self fun n hn => ?_
  have hfree : aliasDelimiter ∉ n := by
    rcases List.mem_append.1 hn with hn | hn
    · have hsplit : n ∈ split assertionDelimiter head := hs ▸ List.mem_cons_of_mem p hn
      exact fun h => hhead (mem_of_mem_split hsplit h)
    · exact (hns n hn).2
  have hpass : ∀ c ∈ n, decide (c = aliasDelimiter) = false :=
    fun c hc => decide_eq_false fun h => hfree (h ▸ hc)
  rw [before_append hpass, before_eq_nil_of_head? (decide_eq_true rfl) htail, List.append_nil]

/-- The alias is read from the first `|` on. -/
theorem readAlias_append (hhead : aliasDelimiter ∉ head)
    (htail : tail = [] ∨ tail.head? = some aliasDelimiter) :
    readAlias (head ++ tail) = readAlias tail := by
  rcases htail with rfl | htail
  · rw [List.append_nil, readAlias, split_of_not_mem hhead]
    rfl
  · obtain ⟨t, rfl⟩ := List.head?_eq_some_iff.1 htail
    rw [readAlias, readAlias, split_append_delimiter hhead, split_delimiter]
    cases split aliasDelimiter t with
    | nil => rfl
    | cons a as => cases as <;> rfl

end

/-- Sorted names without repetition depend only on which names there are. -/
theorem sortNames_congr {ms ns : List String} (h : ∀ n, n ∈ ms ↔ n ∈ ns) :
    sortNames ms = sortNames ns :=
  (pairwise_sortNames ms).eq_of_mem_iff (pairwise_sortNames ns) fun n => by
    rw [mem_sortNames, mem_sortNames, h]

/-! ## the messages of an expression -/

/-- The messages of an expression, in the order in which they are told. -/
def messages (e : String) : List String := (faults e).map Fault.message

/-- A text, names behind it with a `#` before each, and what follows them. -/
def suffixed (head : String) (names : List String) (tail : String) : String :=
  head ++ String.join (names.map fun n => "#" ++ n) ++ tail

/-- Names that stand behind a text, free of delimiters, with perhaps a `|` and what belongs to
it behind them. -/
structure Suffixes (head : String) (names : List String) (tail : String) : Prop where
  head : aliasDelimiter ∉ head.toList
  names : ∀ n ∈ names,
    pathDelimiter ∉ n.toList ∧ assertionDelimiter ∉ n.toList ∧ aliasDelimiter ∉ n.toList
  opens : tail.toList = [] ∨ tail.toList.head? = some aliasDelimiter
  tail : assertionDelimiter ∉ tail.toList

/-- The characters of a `suffixed` text. -/
theorem toList_suffixed (head : String) (names : List String) (tail : String) :
    (suffixed head names tail).toList =
      head.toList ++ marked assertionDelimiter (names.map String.toList) ++ tail.toList := by
  rw [suffixed, String.toList_append, String.toList_append, ← toList_join_map]
  rfl

namespace Suffixes

variable {head tail : String} {names names' : List String}

/-- `Suffixes` does not mind the order of names, nor their number. -/
theorem congr (h : Suffixes head names tail) (hnames : ∀ n, n ∈ names' ↔ n ∈ names) :
    Suffixes head names' tail :=
  ⟨h.head, fun n hn => h.names n ((hnames n).1 hn), h.opens, h.tail⟩

/-- Names behind a text leave its path as it is. -/
theorem path_eq (h : Suffixes head names tail) :
    path (suffixed head names tail).toList = path (head.toList ++ tail.toList) := by
  rw [toList_suffixed]
  exact path_suffixed (List.forall_mem_map.2 fun n hn => (h.names n hn).1) h.opens

/-- Names behind a text are added to its names. -/
theorem names_eq (h : Suffixes head names tail) :
    Expression.names (suffixed head names tail).toList =
      sortNames (((split assertionDelimiter head.toList).drop 1).map String.ofList ++ names) := by
  have hpieces := pieces_suffixed h.head (List.forall_mem_map.2 fun n hn => (h.names n hn).2)
    h.opens h.tail
  rw [Expression.names, toList_suffixed, hpieces, List.map_append, List.map_map]
  simp [Function.comp_def]

/-- Only the set of names behind a text shows in its `names`. -/
theorem names_congr (h : Suffixes head names tail) (hnames : ∀ n, n ∈ names' ↔ n ∈ names) :
    Expression.names (suffixed head names' tail).toList =
      Expression.names (suffixed head names tail).toList := by
  rw [(h.congr hnames).names_eq, h.names_eq]
  exact sortNames_congr fun n => by simp only [List.mem_append, hnames]

/-- Names behind a text leave its alias as it is. -/
theorem readAlias_eq (h : Suffixes head names tail) :
    readAlias (suffixed head names tail).toList = readAlias tail.toList := by
  have hnames : ∀ p ∈ names.map String.toList, aliasDelimiter ∉ p :=
    List.forall_mem_map.2 fun n hn => (h.names n hn).2.2
  rw [toList_suffixed]
  exact readAlias_append (List.not_mem_append h.head (not_mem_marked (by decide) hnames)) h.opens

end Suffixes

/-- The messages of `pathFaults`. -/
theorem map_message_pathFaults (ks : List (List Char)) :
    (pathFaults ks).map Fault.message =
      if "" ∈ ks.map String.ofList then ["empty path segment"] else [] := by
  have hempty : ks.any List.isEmpty = true ↔ "" ∈ ks.map String.ofList := by
    simp [List.any_eq_true]
  by_cases h : "" ∈ ks.map String.ofList
  · rw [pathFaults, if_pos (hempty.2 h), if_pos h]
    rfl
  · rw [pathFaults, if_neg (mt hempty.1 h), if_neg h]
    rfl

/-- The messages of names: an empty one is told first, then the unknown ones in order of their
bytes. -/
theorem map_message_nameFaults (e : String) :
    ((names e.toList).filterMap nameFault).map Fault.message =
      (if NameOf e.toList [] then ["empty assertion name"] else []) ++
        ((names e.toList).filter fun n => n ≠ "" ∧ Assertion.lookup n = none).map
          fun n => "unknown assertion '" ++ n ++ "'" := by
  have hempty : "" ∈ names e.toList ↔ NameOf e.toList [] := mem_names_iff
  rw [names, filterMap_nameFault (pairwise_sortNames _), ← names, List.map_append, List.map_map,
    apply_ite (List.map Fault.message)]
  simp only [hempty]
  rfl

/-- The messages of an alias. -/
theorem map_message_aliasFaults (cs : List Char) :
    (readAlias cs).2.map Fault.message =
      if 2 ≤ cs.count aliasDelimiter then ["only one alias permitted"]
      else if cs.count aliasDelimiter = 1 ∧ cs.getLast? = some aliasDelimiter then ["empty alias"]
      else [] := by
  rw [readAlias_faults, apply_ite (List.map Fault.message), apply_ite (List.map Fault.message)]
  rfl

/-- **Messages**: what is told of an expression, each time together with the expression, is
first that a segment of its path is empty, then that a name is empty, then the names that are
unknown, each once and in the order of their bytes, and last what is wrong with the alias.  So
names without delimiters behind a text count only as a set: their order and number change
neither the messages nor the path, the checks and the alias; and an expression is read just if
there is no message. -/
theorem messages_spec (e : String) :
    (∀ b : Batch, (b.read e).2.problems.map (fun p => (p.expression, p.fault.message)) =
      b.problems.map (fun p => (p.expression, p.fault.message)) ++
        (messages e).map fun m => (e, m)) ∧
    (∃ unknown : List String,
      (unknown.Pairwise fun m n => bytes m < bytes n) ∧
      (∀ n, n ∈ unknown ↔
        NameOf e.toList n.toList ∧ n ≠ "" ∧ n ∉ Assertion.table.map Prod.fst) ∧
      messages e =
        (if "" ∈ (token e).path then ["empty path segment"] else []) ++
        (if NameOf e.toList [] then ["empty assertion name"] else []) ++
        unknown.map (fun n => "unknown assertion '" ++ n ++ "'") ++
        (if 2 ≤ e.toList.count aliasDelimiter then ["only one alias permitted"]
          else if e.toList.count aliasDelimiter = 1 ∧ e.toList.getLast? = some aliasDelimiter then
            ["empty alias"]
          else [])) ∧
    (∀ head names names' tail, e = suffixed head names tail → Suffixes head names tail →
      (∀ n, n ∈ names' ↔ n ∈ names) →
        messages (suffixed head names' tail) = messages e ∧
        (token (suffixed head names' tail)).path = (token e).path ∧
        (token (suffixed head names' tail)).assertions = (token e).assertions ∧
        (token (suffixed head names' tail)).aliasName = (token e).aliasName) ∧
    ((∃ t, readExpression e = .ok t) ↔ messages e = []) := by
  refine ⟨fun b => ?_, ⟨(names e.toList).filter fun n => n ≠ "" ∧ Assertion.lookup n = none,
    ?_, fun n => ?_, ?_⟩, ?_, ?_⟩
  · simp [Batch.read_eq, Batch.problemsOf, messages, Function.comp_def]
  · exact ((pairwise_sortNames _).filter _).imp bytes_lt_bytes_iff.2
  · simp only [List.mem_filter, decide_eq_true_eq, mem_names_iff, lookup_eq_none_iff]
  · rw [messages, faults, List.map_append, List.map_append, map_message_pathFaults,
      map_message_nameFaults, map_message_aliasFaults]
    simp only [List.append_assoc]
    rfl
  · rintro head names names' tail rfl h hnames
    have h' := h.congr hnames
    simp only [messages, faults, token, h.path_eq, h'.path_eq, h.names_congr hnames,
      h.readAlias_eq, h'.readAlias_eq, and_self]
  · simp only [readExpression_eq_ok_iff, exists_and_left, exists_eq, and_true, messages,
      List.map_eq_nil_iff]

/-- Three names, of which one is known, one is unknown and one is empty, between a path and two
`|` with a `>` between them; the same names in another order, with one of them repeated. -/
theorem messages_spec_repeated :
    Suffixes "a>b" ["int", "x", ""] "|c>d|" ∧
    (∀ n, n ∈ ["", "x", "int", "x"] ↔ n ∈ ["int", "x", ""]) ∧
    messages (suffixed "a>b" ["", "x", "int", "x"] "|c>d|") =
      messages (suffixed "a>b" ["int", "x", ""] "|c>d|") ∧
    (token (suffixed "a>b" ["", "x", "int", "x"] "|c>d|")).path =
      (token (suffixed "a>b" ["int", "x", ""] "|c>d|")).path ∧
    (token (suffixed "a>b" ["", "x", "int", "x"] "|c>d|")).assertions =
      (token (suffixed "a>b" ["int", "x", ""] "|c>d|")).assertions ∧
    (token (suffixed "a>b" ["", "x", "int", "x"] "|c>d|")).aliasName =
      (token (suffixed "a>b" ["int", "x", ""] "|c>d|")).aliasName := by
  have hsuffixes : Suffixes "a>b" ["int", "x", ""] "|c>d|" :=
    ⟨by decide, by decide, by decide, by decide⟩
  have hnames : ∀ n, n ∈ ["", "x", "int", "x"] ↔ n ∈ ["int", "x", ""] := by
    intro n
    simp only [List.mem_cons, List.not_mem_nil, or_false]
    tauto
  exact ⟨hsuffixes, hnames, (messages_spec _).2.2.1 _ _ _ _ rfl hsuffixes hnames⟩

example : messages "a>b#int#x#|c>d|" =
    ["empty assertion name", "unknown assertion 'x'", "only one alias permitted"] := by decide

end Extraction.Transition.Expression
