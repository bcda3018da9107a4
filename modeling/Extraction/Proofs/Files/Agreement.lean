import Extraction.Files.Tree
import Mathlib.Data.List.Infix

/-!
# Extraction.Proofs.Files.Agreement

Trees that differ in one directory only.

A path is followed name by name, and what stands in a directory is looked at no sooner than the
way leads there.  So a path whose way keeps clear of the directory leads to the same in both
trees:

* `AgreeOutside`, `agreeOutside_write` — trees that differ in one directory only, as after
  something was written there;
* `PassesThrough` — paths whose way leads through a directory;
* `follow?_of_agreeOutside` — the way of another path is the same in both trees;
* `view_of_agreeOutside` — and so is what it leads to.
-/

namespace Extraction.Files.Tree

open Document (Entries)

/-! ## places -/

/-- What stands at a place. -/
def foundAt (root : Tree) (place : List String) : Found :=
  match root.get? place with
  | some t => t.found
  | none => .absent

/-- `isDirectoryAt` is true just where `foundAt` finds a directory. -/
theorem isDirectoryAt_iff {here : List String} {root : Tree} :
    root.isDirectoryAt here = true ↔ root.foundAt here = .directory := by
  rw [isDirectoryAt, foundAt]
  cases root.get? here with
  | none => simp
  | some t => cases t <;> simp [found]

/-- A `view` finds what stands at the place of a path. -/
theorem view_eq (root : Tree) (path : String) :
    root.view path = match root.place? path with
      | some place => root.foundAt place
      | none => .absent := by
  rw [view]
  cases root.place? path <;> rfl

/-! ## trees that differ in one directory only -/

/-- The same stands in both trees wherever it does not stand in the directory. -/
def AgreeOutside (dir : List String) (t u : Tree) : Prop :=
  ∀ place, ¬ dir <+: place → t.foundAt place = u.foundAt place

/-- The way of a path leads to the directory, and perhaps on from there. -/
def PassesThrough (root : Tree) (dir : List String) (path : String) : Prop :=
  ∃ front, front <+: (names path).map String.ofList ∧ root.follow? [] front = some dir.reverse

instance (root : Tree) (dir : List String) (path : String) :
    Decidable (PassesThrough root dir path) :=
  decidable_of_iff
    (∃ front ∈ ((names path).map String.ofList).inits, root.follow? [] front = some dir.reverse)
    (by simp only [PassesThrough, List.mem_inits])

variable {dir : List String} {t u : Tree}

/-- Under `AgreeOutside` the directories outside the named one are the same. -/
theorem isDirectoryAt_of_agreeOutside (h : AgreeOutside dir t u) {here : List String}
    (hhere : ¬ dir <+: here) : t.isDirectoryAt here = u.isDirectoryAt here := by
  rw [Bool.eq_iff_iff, isDirectoryAt_iff, isDirectoryAt_iff, h here hhere]

/-! ## the way of a path -/

/-- Where one name leads from a directory. -/
def enter? (root : Tree) (here : List String) (n : String) : Option (List String) :=
  if !root.isDirectoryAt here.reverse then none
  else if n = "" || n = "." then some here
  else if n = ".." then some here.tail
  else some (n :: here)

/-- `follow?` enters the first name and goes on with the others. -/
theorem follow?_cons (root : Tree) (here : List String) (n : String) (ns : List String) :
    root.follow? here (n :: ns) =
      (root.enter? here n).bind fun there => root.follow? there ns := by
  rw [follow?, enter?]
  split
  · rfl
  · split
    · rfl
    · split
      · rfl
      · rfl

/-- From outside the directory `enter?` takes the same step in both trees. -/
theorem enter?_of_agreeOutside (h : AgreeOutside dir t u) {here : List String}
    (hhere : ¬ dir <+: here.reverse) (n : String) : t.enter? here n = u.enter? here n := by
  rw [enter?, enter?, isDirectoryAt_of_agreeOutside h hhere]

/-- One name does not lead into the directory, except to the directory itself. -/
theorem not_prefix_of_enter? {root : Tree} {here there : List String} {n : String}
    (hhere : ¬ dir <+: here.reverse) (h : root.enter? here n = some there)
    (hthere : there ≠ dir.reverse) : ¬ dir <+: there.reverse := by
  rw [enter?] at h
  split at h
  · cases h
  · split at h
    · cases h
      exact hhere
    · split at h
      · cases h
        intro hbelow
        cases here with
        | nil => exact hhere hbelow
        | cons m above =>
            rw [List.reverse_cons] at hhere
            exact hhere (hbelow.trans (List.prefix_append _ _))
      · cases h
        rw [List.reverse_cons, List.prefix_concat_iff]
        rintro (hdir | hbelow)
        · exact hthere (by simp [hdir])
        · exact hhere hbelow

/-- A way that does not lead to the directory is the same in both trees, and ends outside. -/
theorem follow?_of_agreeOutside (h : AgreeOutside dir t u) {ns here : List String}
    (hhere : ¬ dir <+: here.reverse)
    (hns : ∀ front, front <+: ns → t.follow? here front ≠ some dir.reverse) :
    t.follow? here ns = u.follow? here ns ∧
      ∀ there, t.follow? here ns = some there → ¬ dir <+: there.reverse := by
  induction ns generalizing here with
  | nil => exact ⟨rfl, fun there hthere => by cases hthere; exact hhere⟩
  | cons n ns ih =>
      rw [follow?_cons, follow?_cons, ← enter?_of_agreeOutside h hhere]
      cases henter : t.enter? here n with
      | none => exact ⟨rfl, nofun⟩
      | some there =>
          have hfront : ∀ front, front <+: ns → t.follow? there front ≠ some dir.reverse := by
            intro front hfront
            have hcons := hns (n :: front) ((List.prefix_cons_inj n).2 hfront)
            rwa [follow?_cons, henter] at hcons
          have hthere : there ≠ dir.reverse := fun hdir =>
            hfront [] List.nil_prefix (by rw [follow?, hdir])
          exact ih (not_prefix_of_enter? hhere henter hthere) hfront

/-- A path that does not pass through the directory has one place in both trees, outside it. -/
theorem place?_of_agreeOutside (h : AgreeOutside dir t u) {path : String}
    (hpath : ¬ t.PassesThrough dir path) :
    t.place? path = u.place? path ∧ ∀ place, t.place? path = some place → ¬ dir <+: place := by
  have hns : ∀ front, front <+: (names path).map String.ofList →
      t.follow? [] front ≠ some dir.reverse := fun front hfront hfollow =>
    hpath ⟨front, hfront, hfollow⟩
  have hroot : ¬ dir <+: ([] : List String).reverse := fun hdir =>
    hns [] List.nil_prefix (by rw [follow?, List.prefix_nil.1 hdir]; rfl)
  obtain ⟨hfollow, houtside⟩ := follow?_of_agreeOutside h hroot hns
  rw [place?, place?, ← hfollow]
  refine ⟨rfl, fun place hplace => ?_⟩
  split at hplace
  · cases hplace
  · obtain ⟨there, hthere, rfl⟩ := Option.map_eq_some_iff.1 hplace
    exact houtside there hthere

/-- A path whose way keeps clear of the directory leads to the same in both trees. -/
theorem view_of_agreeOutside (h : AgreeOutside dir t u) {path : String}
    (hpath : ¬ t.PassesThrough dir path) : t.view path = u.view path := by
  obtain ⟨hplace, houtside⟩ := place?_of_agreeOutside h hpath
  rw [view_eq, view_eq, ← hplace]
  cases ht : t.place? path with
  | none => rfl
  | some place => exact h place (houtside place ht)

/-! ## writing into the directory -/

/-- In a directory `foundAt` goes on with the child of the first name. -/
theorem foundAt_directory_cons (es : List (String × Tree)) (n : String) (ns : List String) :
    foundAt (.directory es) (n :: ns) = match Entries.get? n es with
      | some child => child.foundAt ns
      | none => .absent := by
  rw [foundAt, get?]
  cases Entries.get? n es <;> rfl

/-- Storing an entry changes nothing elsewhere, if it changes nothing under its own name. -/
theorem agreeOutside_insert {es : List (String × Tree)} {n : String} {child : Tree}
    (h : ∀ rest, ¬ dir <+: n :: rest →
      foundAt (.directory es) (n :: rest) = child.foundAt rest) :
    AgreeOutside dir (.directory es) (.directory (Entries.insert n child es)) := by
  intro place hplace
  cases place with
  | nil => rfl
  | cons m rest =>
      rw [foundAt_directory_cons, foundAt_directory_cons, Entries.get?_insert]
      by_cases hm : m = n
      · subst hm
        rw [if_pos rfl, ← foundAt_directory_cons]
        exact h rest hplace
      · rw [if_neg hm]

/-- What is put somewhere in a directory changes nothing elsewhere. -/
theorem agreeOutside_put {new : Tree} {ns : List String} (h : put? new ns t = some u)
    (hdir : dir <+: ns) : AgreeOutside dir t u := by
  induction ns generalizing t u dir with
  | nil =>
      cases List.prefix_nil.1 hdir
      exact fun place hplace => absurd List.nil_prefix hplace
  | cons n ns ih =>
      cases dir with
      | nil => exact fun place hplace => absurd List.nil_prefix hplace
      | cons m dir =>
          obtain ⟨rfl, htail⟩ := List.cons_prefix_cons.1 hdir
          cases t with
          -- nothing can be put below a file
          | file _ => cases ns <;> simp [put?] at h
          | directory es =>
              cases ns with
              | nil =>
                  cases h
                  cases List.prefix_nil.1 htail
                  refine agreeOutside_insert fun rest hrest => absurd ?_ hrest
                  exact List.cons_prefix_cons.2 ⟨rfl, List.nil_prefix⟩
              | cons k ns =>
                  simp only [put?, Option.bind_eq_bind, Option.bind_eq_some_iff] at h
                  obtain ⟨child, hchild, child', hput, hu⟩ := h
                  cases hu
                  refine agreeOutside_insert fun rest hrest => ?_
                  rw [foundAt_directory_cons, hchild]
                  -- the directory lies in the child that is gone to, the other children stay
                  refine ih hput htail rest fun hbelow => hrest ?_
                  exact List.cons_prefix_cons.2 ⟨rfl, hbelow⟩

/-- Writing a file somewhere in a directory changes nothing elsewhere. -/
theorem agreeOutside_write {path : String} {bytes : ByteArray} {place : List String}
    (h : t.write? path bytes = some u) (hplace : t.place? path = some place)
    (hdir : dir <+: place) : AgreeOutside dir t u := by
  rw [write?, hplace, Option.bind_eq_bind, Option.bind_some] at h
  split at h
  · cases h
  · exact agreeOutside_put h hdir

end Extraction.Files.Tree
