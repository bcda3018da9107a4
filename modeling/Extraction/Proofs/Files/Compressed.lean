import Extraction.Files.Path
import Mathlib.Data.List.Basic

/-!
# Extraction.Proofs.Files.Compressed

Two tests of a path for the ending of compressed files.

One decides whether a file is decompressed: it looks at the last name of the path, takes the
ending as it is written, and asks for something before it.  The other decides whether the ending
is passed over when a format is looked for: it looks at the end of the text, whatever the case
of its letters.  Both come down to the names that the path is made of:

* `getLast?_filter_eq_some_iff`, `isCompressed_iff` — the last name behind which nothing but
  empty names and dots stand;
* `exists_join_concat`, `suffix_iff_of_split`, `dropsEnding_iff` — the end of the text is the end
  of the last name;
* `isCompressed_iff_dropsEnding_iff` — the tests differ on three kinds of paths, `Misjudged`,
  and on no others;
* `isCompressed_misjudged` — a path of each kind.
-/

namespace Extraction.Files

open Text

/-! ## the last name -/

/-- The last member that is kept is one behind which none is kept. -/
theorem getLast?_filter_eq_some_iff {α : Type} {p : α → Bool} {xs : List α} {x : α} :
    (xs.filter p).getLast? = some x ↔
      p x = true ∧ ∃ before after, xs = before ++ x :: after ∧ ∀ y ∈ after, p y = false := by
  rw [← List.head?_reverse, ← List.filter_reverse, List.head?_filter,
    List.find?_eq_some_iff_append]
  simp only [List.reverse_eq_iff, List.reverse_append, List.reverse_cons, List.append_assoc,
    List.singleton_append, Bool.not_eq_true']
  constructor
  · intro ⟨hx, after, before, hxs, hafter⟩
    exact ⟨hx, before.reverse, after.reverse, hxs, fun y hy => hafter y (List.mem_reverse.1 hy)⟩
  · intro ⟨hx, before, after, hxs, hafter⟩
    exact ⟨hx, after.reverse, before.reverse, by simpa using hxs,
      fun y hy => hafter y (List.mem_reverse.1 hy)⟩

/-- A file is decompressed if the name of something has the ending, and at most separators and
names for the same directory stand behind that name. -/
theorem isCompressed_iff {path : String} :
    isCompressed path = true ↔ ∃ before stem after,
      names path = before ++ (stem ++ compressedEnding) :: after ∧ stem ≠ [] ∧
        ∀ n ∈ after, n = [] ∨ n = ['.'] := by
  -- the file name is the last of those that are neither empty nor the directory itself
  have hlast : ∀ n, ((names path).filter fun n => n ≠ [] && n ≠ ['.']).getLast? = some n ↔
      (n ≠ [] ∧ n ≠ ['.']) ∧ ∃ before after, names path = before ++ n :: after ∧
        ∀ m ∈ after, m = [] ∨ m = ['.'] := by
    intro n
    rw [getLast?_filter_eq_some_iff]
    simp [Classical.or_iff_not_imp_left]
  unfold isCompressed lastName?
  constructor
  · intro h
    split at h
    · next n hn =>
      split at hn
      · next m hm =>
        split at hn
        · cases hn
        · obtain rfl : m = n := Option.some.inj hn
          obtain ⟨-, before, after, hnames, hafter⟩ := (hlast m).1 hm
          simp only [Bool.and_eq_true, decide_eq_true_eq, List.isSuffixOf_iff_suffix] at h
          obtain ⟨⟨stem, rfl⟩, hne⟩ := h
          refine ⟨before, stem, after, hnames, ?_, hafter⟩
          intro hstem
          exact hne (by rw [hstem, List.nil_append])
      · cases hn
    · cases h
  · intro ⟨before, stem, after, hnames, hstem, hafter⟩
    have hlength : (stem ++ compressedEnding).length = stem.length + 3 := by
      rw [List.length_append]
      rfl
    have hne : ∀ n : List Char, n.length < 3 → stem ++ compressedEnding ≠ n := by
      intro n hn heq
      rw [heq] at hlength
      omega
    rw [(hlast _).2 ⟨⟨hne _ (by decide), hne _ (by decide)⟩, before, after, hnames, hafter⟩]
    dsimp only
    rw [if_neg (hne _ (by decide))]
    simpa [List.isSuffixOf_iff_suffix] using hstem

/-! ## the end of the text -/

/-- The ending is passed over when a format is looked for. -/
def Format.DropsEnding (path : String) : Prop :=
  Format.uncompressed (path.toList.map lower) ≠ path.toList.map lower

instance (path : String) : Decidable (Format.DropsEnding path) :=
  inferInstanceAs (Decidable (_ ≠ _))

/-- `uncompressed` takes something off a name just if the name has the ending. -/
theorem uncompressed_ne_iff {cs : List Char} :
    Format.uncompressed cs ≠ cs ↔ compressedEnding <:+ cs := by
  rw [← List.isSuffixOf_iff_suffix]
  unfold Format.uncompressed
  by_cases h : compressedEnding.isSuffixOf cs = true
  · have hle : 3 ≤ cs.length := (List.isSuffixOf_iff_suffix.1 h).length_le
    have hlength : (cs.take (cs.length - compressedEnding.length)).length ≠ cs.length := by
      rw [List.length_take]
      have hending : compressedEnding.length = 3 := rfl
      omega
    rw [if_pos h]
    exact ⟨fun _ => h, fun _ heq => hlength (congrArg List.length heq)⟩
  · rw [if_neg h]
    exact ⟨fun hne => absurd rfl hne, fun hsuffix => absurd hsuffix h⟩

/-- The last piece ends the text, and behind whatever stands before it there is a delimiter. -/
theorem exists_join_concat (d : Char) (ps : List (List Char)) (last : List Char) :
    ∃ front, join d (ps ++ [last]) = front ++ last ∧ (front = [] ∨ front.getLast? = some d) := by
  induction ps with
  | nil => exact ⟨[], rfl, .inl rfl⟩
  | cons p ps ih =>
      obtain ⟨front, hjoin, hfront⟩ := ih
      obtain ⟨q, qs, hcons⟩ : ∃ q qs, ps ++ [last] = q :: qs :=
        List.exists_cons_of_ne_nil (by simp)
      refine ⟨p ++ d :: front, ?_, .inr ?_⟩
      · rw [List.cons_append, hcons, join, ← hcons, hjoin, List.append_assoc, List.cons_append]
      · cases hfront with
        | inl hnil => simp [hnil]
        | inr hlast => simp [List.getLast?_append, List.getLast?_cons, hlast]

/-- A text without the delimiter ends a text if it ends its last piece. -/
theorem suffix_iff_of_split {d : Char} {cs s last : List Char} {ps : List (List Char)}
    (hs : d ∉ s) (hsplit : split d cs = ps ++ [last]) : s <:+ cs ↔ s <:+ last := by
  obtain ⟨front, hjoin, hfront⟩ := exists_join_concat d ps last
  rw [← hsplit, join_split] at hjoin
  subst hjoin
  constructor
  · intro ⟨before, h⟩
    cases List.append_eq_append_iff.1 h with
    | inl hlonger =>
        obtain ⟨more, hmore, rfl⟩ := hlonger
        by_cases hnil : more = []
        · simp [hnil]
        · have hd : d ∈ more := by
            cases hfront with
            | inl hempty => simp [hempty, hnil] at hmore
            | inr hlast =>
                rw [hmore, List.getLast?_append_of_ne_nil _ hnil] at hlast
                exact List.mem_of_getLast? hlast
          exact absurd (List.mem_append_left last hd) hs
    | inr hshorter =>
        obtain ⟨more, -, rfl⟩ := hshorter
        exact List.suffix_append more s
  · exact fun h => h.trans (List.suffix_append front last)

/-- Only a point has a point as its lower-case form. -/
theorem eq_point_of_lower {c : Char} (h : lower c = '.') : c = '.' := by
  unfold lower at h
  split at h
  · next hc =>
    simp only [Char.le_def, UInt32.le_iff_toNat_le] at hc
    have hA : ('A' : Char).val.toNat = 65 := rfl
    have hZ : ('Z' : Char).val.toNat = 90 := rfl
    have hval : c.toNat = c.val.toNat := rfl
    have hall : ∀ k : Fin 26, Char.ofNat (65 + k.val + 32) ≠ '.' := by decide
    have hsum : 65 + (c.toNat - 65) = c.toNat := by omega
    have hne := hall ⟨c.toNat - 65, by omega⟩
    simp only [hsum] at hne
    exact absurd h hne
  · exact h

/-- The ending is passed over if the last name has it, whatever the case of its letters. -/
theorem dropsEnding_iff {path : String} {before : List (List Char)} {last : List Char}
    (hnames : names path = before ++ [last]) :
    Format.DropsEnding path ↔
      ∃ stem g z, last = stem ++ ['.', g, z] ∧ lower g = 'g' ∧ lower z = 'z' := by
  have hslash : ∀ {g z : Char}, lower g = 'g' → lower z = 'z' → '/' ∉ ['.', g, z] := by
    intro g z hg hz hmem
    have hlower : lower '/' ∈ ['.', g, z].map lower := List.mem_map_of_mem hmem
    rw [List.map_cons, List.map_cons, List.map_cons, hg, hz] at hlower
    exact absurd hlower (by decide)
  unfold Format.DropsEnding
  rw [uncompressed_ne_iff, List.suffix_map_iff]
  constructor
  · intro ⟨ending, hending, hmap⟩
    obtain ⟨p, gz, rfl, hp, hgz⟩ := List.map_eq_cons_iff.1 hmap.symm
    obtain ⟨g, zs, rfl, hg, hzs⟩ := List.map_eq_cons_iff.1 hgz
    obtain ⟨z, rest, rfl, hz, hrest⟩ := List.map_eq_cons_iff.1 hzs
    obtain rfl := List.map_eq_nil_iff.1 hrest
    obtain rfl := eq_point_of_lower hp
    obtain ⟨stem, hstem⟩ := (suffix_iff_of_split (hslash hg hz) hnames).1 hending
    exact ⟨stem, g, z, hstem.symm, hg, hz⟩
  · intro ⟨stem, g, z, hlast, hg, hz⟩
    refine ⟨['.', g, z], (suffix_iff_of_split (hslash hg hz) hnames).2 ⟨stem, hlast.symm⟩, ?_⟩
    rw [List.map_cons, List.map_cons, List.map_cons, hg, hz]
    rfl

/-! ## where the tests differ -/

/-- The paths for which one test tells a compressed file and the other does not. -/
inductive Misjudged (path : String) : Prop
  /-- The last name ends in the ending with a capital letter. -/
  | capital {before : List (List Char)} {stem : List Char} {g z : Char} :
      names path = before ++ [stem ++ ['.', g, z]] → lower g = 'g' → lower z = 'z' →
        ['.', g, z] ≠ compressedEnding → Misjudged path
  /-- The last name is nothing but the ending. -/
  | bare {before : List (List Char)} :
      names path = before ++ [compressedEnding] → Misjudged path
  /-- Separators stand behind the name of a compressed file. -/
  | trailing {before after : List (List Char)} {stem : List Char} :
      names path = before ++ (stem ++ compressedEnding) :: after → stem ≠ [] → after ≠ [] →
        (∀ n ∈ after, n = [] ∨ n = ['.']) → Misjudged path

section

variable {path : String} {before : List (List Char)} {last : List Char}

/-- Behind the last name nothing stands, so it is the one that is looked at. -/
theorem isCompressed_iff_of_names (hnames : names path = before ++ [last]) (hempty : last ≠ [])
    (hdot : last ≠ ['.']) :
    isCompressed path = true ↔ ∃ stem, last = stem ++ compressedEnding ∧ stem ≠ [] := by
  rw [isCompressed_iff]
  constructor
  · intro ⟨before', stem, after, hnames', hstem, hafter⟩
    rw [hnames] at hnames'
    cases List.eq_nil_or_concat after with
    | inl hnil =>
        rw [hnil] at hnames'
        exact ⟨stem, List.singleton_inj.1 (List.append_inj_right' hnames' rfl), hstem⟩
    | inr hconcat =>
        obtain ⟨between, n, rfl⟩ := hconcat
        rw [List.concat_eq_append, ← List.cons_append, ← List.append_assoc] at hnames'
        obtain rfl : last = n := List.singleton_inj.1 (List.append_inj_right' hnames' rfl)
        cases hafter last (by simp) with
        | inl h => exact absurd h hempty
        | inr h => exact absurd h hdot
  · intro ⟨stem, hlast, hstem⟩
    exact ⟨before, stem, [], by rw [hnames, hlast], hstem, by simp⟩

/-- A name that a path may end in without naming anything has no ending. -/
theorem not_dropsEnding (hnames : names path = before ++ [last])
    (hlast : last = [] ∨ last = ['.']) : ¬ Format.DropsEnding path := by
  rw [dropsEnding_iff hnames]
  intro ⟨stem, g, z, heq, _, _⟩
  have hlength := congrArg List.length heq
  cases hlast with
  | inl h => simp [h] at hlength
  | inr h => simp [h] at hlength

/-- The tests differ on the three kinds of paths. -/
theorem Misjudged.isCompressed_iff_not (h : Misjudged path) :
    isCompressed path = true ↔ ¬ Format.DropsEnding path := by
  cases h with
  | @capital before stem g z hnames hg hz hne =>
      have hdrops : Format.DropsEnding path := (dropsEnding_iff hnames).2 ⟨stem, g, z, rfl, hg, hz⟩
      have hlong : ∀ n : List Char, n.length < 3 → stem ++ ['.', g, z] ≠ n := by
        intro n hn heq
        rw [← heq, List.length_append] at hn
        exact absurd hn (by simp)
      rw [isCompressed_iff_of_names hnames (hlong _ (by decide)) (hlong _ (by decide))]
      refine ⟨fun ⟨stem', heq, _⟩ => ?_, fun hnot => absurd hdrops hnot⟩
      exact absurd (List.append_inj_right' heq rfl) hne
  | @bare before hnames =>
      have hdrops : Format.DropsEnding path :=
        (dropsEnding_iff hnames).2 ⟨[], 'g', 'z', rfl, rfl, rfl⟩
      rw [isCompressed_iff_of_names hnames (by decide) (by decide)]
      refine ⟨fun ⟨stem, heq, hstem⟩ => ?_, fun hnot => absurd hdrops hnot⟩
      exact absurd (by simpa using heq) hstem
  | @trailing before after stem hnames hstem hafter hplain =>
      have hcompressed : isCompressed path = true :=
        isCompressed_iff.2 ⟨before, stem, after, hnames, hstem, hplain⟩
      obtain ⟨between, n, rfl⟩ := (List.eq_nil_or_concat after).resolve_left hafter
      rw [List.concat_eq_append, ← List.cons_append, ← List.append_assoc] at hnames
      have hnot := not_dropsEnding hnames (hplain n (by simp))
      exact ⟨fun _ => hnot, fun _ => hcompressed⟩

/-- On every other path the tests agree. -/
theorem isCompressed_iff_of_not_misjudged (h : ¬ Misjudged path) :
    isCompressed path = true ↔ Format.DropsEnding path := by
  obtain ⟨before, last, hnames⟩ : ∃ before last, names path = before ++ [last] := by
    have hne : names path ≠ [] := split_ne_nil '/' path.toList
    obtain ⟨before, last, hconcat⟩ := (List.eq_nil_or_concat (names path)).resolve_left hne
    exact ⟨before, last, by rw [hconcat, List.concat_eq_append]⟩
  constructor
  · intro hcompressed
    obtain ⟨before', stem, after, hnames', hstem, hafter⟩ := isCompressed_iff.1 hcompressed
    by_cases hnil : after = []
    · rw [hnil] at hnames'
      exact (dropsEnding_iff hnames').2 ⟨stem, 'g', 'z', rfl, rfl, rfl⟩
    · exact absurd (.trailing hnames' hstem hnil hafter) h
  · intro hdrops
    obtain ⟨stem, g, z, rfl, hg, hz⟩ := (dropsEnding_iff hnames).1 hdrops
    by_cases hending : ['.', g, z] = compressedEnding
    · rw [hending] at hnames
      by_cases hstem : stem = []
      · rw [hstem] at hnames
        exact absurd (.bare hnames) h
      · exact isCompressed_iff.2 ⟨before, stem, [], hnames, hstem, by simp⟩
    · exact absurd (.capital hnames hg hz hending) h

end

/-- **The two tests of the ending**: a file is decompressed exactly when its ending is passed
over in the search for a format, unless the ending has a capital letter, is a whole name, or has
separators behind it; and on each path of these three kinds the tests do differ. -/
theorem isCompressed_iff_dropsEnding_iff (path : String) :
    (isCompressed path = true ↔ Format.DropsEnding path) ↔ ¬ Misjudged path := by
  constructor
  · intro hagree hmisjudged
    have hdiffer := hmisjudged.isCompressed_iff_not
    rw [hagree] at hdiffer
    exact iff_not_self hdiffer
  · exact isCompressed_iff_of_not_misjudged

/-- The first two paths end in the ending and are not decompressed; the third is decompressed,
and its ending is not passed over. -/
theorem isCompressed_misjudged :
    (isCompressed "a.json.GZ" = false ∧ Format.DropsEnding "a.json.GZ") ∧
    (isCompressed "d/.gz" = false ∧ Format.DropsEnding "d/.gz") ∧
    (isCompressed "a.gz/." = true ∧ ¬ Format.DropsEnding "a.gz/.") ∧
    ¬ ∀ path, isCompressed path = true ↔ Format.DropsEnding path := by
  have hcapital : isCompressed "a.json.GZ" = false ∧ Format.DropsEnding "a.json.GZ" := by decide
  refine ⟨hcapital, by decide, by decide, fun hagree => ?_⟩
  have htrue := (hagree "a.json.GZ").2 hcapital.2
  rw [hcapital.1] at htrue
  cases htrue

end Extraction.Files
