import Extraction.Proofs.Files.Agreement

/-!
# Extraction.Proofs.Files.Saved

A file that was written is found again under the path it was written to.

Writing puts the file where the path leads, so the path has to lead there afterwards as well.
It does, for the directories on its way stay directories: the place of the file was not one of
them.

* `get?_append` — what stands at a place, seen from a directory on the way;
* `isDirectoryAt_put` — directories stay directories;
* `follow?_of_isDirectoryAt`, `place?_of_isDirectoryAt` — then a path keeps its place;
* `view_save` — what the path of a saved file leads to.
-/

namespace Extraction.Files.Tree

open Document (Entries)

variable {t u : Tree}

/-- `get?` follows a longer place by following its parts. -/
theorem get?_append (ns ms : List String) (t : Tree) :
    t.get? (ns ++ ms) = (t.get? ns).bind fun child => child.get? ms := by
  induction ns generalizing t with
  | nil => rfl
  | cons n ns ih =>
      cases t with
      | file bytes => rfl
      | directory es =>
          rw [List.cons_append, get?, get?]
          cases Entries.get? n es with
          | none => rfl
          | some child => exact ih child

/-- What stands above a directory is a directory. -/
theorem isDirectoryAt_of_append {ns ms : List String} (h : t.isDirectoryAt (ns ++ ms) = true) :
    t.isDirectoryAt ns = true := by
  unfold isDirectoryAt at h ⊢
  rw [get?_append] at h
  cases hget : t.get? ns with
  | none => simp [hget] at h
  | some child =>
      cases child with
      | directory es => rfl
      | file bytes => cases ms <;> simp [hget, get?] at h

/-- Where no directory stood something is put, and every directory stays. -/
theorem isDirectoryAt_put {new : Tree} {place : List String} (h : put? new place t = some u)
    (hplace : t.isDirectoryAt place = false) {here : List String}
    (hhere : t.isDirectoryAt here = true) : u.isDirectoryAt here = true := by
  have houtside : ¬ place <+: here := by
    intro ⟨more, hmore⟩
    rw [← hmore] at hhere
    rw [isDirectoryAt_of_append hhere] at hplace
    cases hplace
  have hagree : AgreeOutside place t u := agreeOutside_put h (List.prefix_refl place)
  rw [← isDirectoryAt_of_agreeOutside hagree houtside]
  exact hhere

/-! ## the place of a path -/

section

variable (hdirectories : ∀ here, t.isDirectoryAt here = true → u.isDirectoryAt here = true)

include hdirectories

/-- Names that `follow?` can follow it can follow where there are more directories. -/
theorem follow?_of_isDirectoryAt {ns here place : List String}
    (h : t.follow? here ns = some place) : u.follow? here ns = some place := by
  induction ns generalizing here with
  | nil => exact h
  | cons n ns ih =>
      rw [follow?_cons] at h ⊢
      obtain ⟨there, henter, hfollow⟩ := Option.bind_eq_some_iff.1 h
      have hsame : u.enter? here n = t.enter? here n := by
        cases hdir : t.isDirectoryAt here.reverse with
        | false => simp [enter?, hdir] at henter
        | true => simp [enter?, hdir, hdirectories _ hdir]
      rw [hsame, henter]
      exact ih hfollow

/-- A path keeps its `place?` where there are more directories. -/
theorem place?_of_isDirectoryAt {path : String} {place : List String}
    (h : t.place? path = some place) : u.place? path = some place := by
  unfold place? at h ⊢
  split at h
  · cases h
  · next hpath =>
    obtain ⟨there, hthere, rfl⟩ := Option.map_eq_some_iff.1 h
    rw [if_neg hpath, follow?_of_isDirectoryAt hdirectories hthere]
    rfl

end

/-! ## written files -/

/-- A `view` finds at a path what `write?` has put there. -/
theorem view_write {path : String} {bytes : ByteArray} (h : t.write? path bytes = some u) :
    u.view path = .file bytes := by
  obtain ⟨place, hplace, hput⟩ := Option.bind_eq_some_iff.1 h
  have hnot : t.isDirectoryAt place = false ∧ put? (.file bytes) place t = some u := by
    unfold isDirectoryAt
    cases hget : t.get? place with
    | none => exact ⟨rfl, by simpa [hget] using hput⟩
    | some child =>
        cases child with
        | directory es => simp [hget] at hput
        | file old => exact ⟨rfl, by simpa [hget] using hput⟩
  obtain ⟨hdirectory, hput⟩ := hnot
  have hkeeps : u.place? path = some place :=
    place?_of_isDirectoryAt (fun _ hhere => isDirectoryAt_put hput hdirectory hhere) hplace
  rw [view, hkeeps, Option.bind_some, get?_put hput]
  rfl

/-- The path that a file was saved to leads to it. -/
theorem view_save {path : String} {bytes : ByteArray} (h : t.save? path bytes = some u) :
    u.view path = .file bytes := by
  obtain ⟨made, -, hwrite⟩ := Option.bind_eq_some_iff.1 h
  exact view_write hwrite

end Extraction.Files.Tree
