import Extraction.Document.Entries
import Extraction.Files.Path

/-!
# Extraction.Files.Tree

The files of a system, and what paths lead to.  Paths start at the root directory, those
that begin with a separator and the others alike, and the root is its own parent.

* `get?_put` — what is found after something was put at the same place.
-/

namespace Extraction.Files

open Document (Entries)

/-- What a path leads to. -/
inductive Found where
  | absent
  | directory
  | file (bytes : ByteArray)

/-- The files that a program can see: what each path leads to. -/
abbrev View := String → Found

/-- A file, or a directory with what is in it. -/
inductive Tree where
  | file (bytes : ByteArray)
  | directory (entries : List (String × Tree))

namespace Tree

def empty : Tree := directory []

def found : Tree → Found
  | file bytes => .file bytes
  | directory _ => .directory

/-- What stands at a place, given by the names on the way there. -/
def get? : List String → Tree → Option Tree
  | [], t => some t
  | n :: ns, directory es => (Entries.get? n es).bind (get? ns)
  | _ :: _, file _ => none

/-- Puts something at a place whose parent is a directory. -/
def put? (new : Tree) : List String → Tree → Option Tree
  | [], _ => some new
  | [n], directory es => some (directory (Entries.insert n new es))
  | n :: m :: ns, directory es => do
    let child ← Entries.get? n es
    let child ← put? new (m :: ns) child
    return directory (Entries.insert n child es)
  | _ :: _, file _ => none

def isDirectoryAt (here : List String) (root : Tree) : Bool :=
  match root.get? here with
  | some (directory _) => true
  | _ => false

/-! ## following paths -/

/-- The place that names lead to from a directory, `here` being the names on the way to
it, the last one first.  Everything but the end of the way has to be a directory. -/
def follow? (root : Tree) (here : List String) : List String → Option (List String)
  | [] => some here
  | n :: ns =>
    if !root.isDirectoryAt here.reverse then none
    else if n = "" || n = "." then follow? root here ns
    else if n = ".." then follow? root here.tail ns
    else follow? root (n :: here) ns

/-- The place that a path leads to.  The empty name before a leading separator leads
nowhere else, so that such a path starts at the root as well. -/
def place? (root : Tree) (path : String) : Option (List String) :=
  if path = "" then none
  else (root.follow? [] ((names path).map String.ofList)).map List.reverse

/-- What paths lead to: the `found` of what stands at the `place?` of a path. -/
def view (root : Tree) : View := fun path =>
  match (root.place? path).bind fun ns => root.get? ns with
  | some t => t.found
  | none => .absent

/-! ## writing files -/

/-- Makes the directories on a way, `here` being the names before it, the last one first. -/
def makeDirectories? (here : List String) : List String → Tree → Option Tree
  | [], root => some root
  | n :: ns, root =>
    if n = ".." then makeDirectories? here.tail ns root
    else
      match root.get? (n :: here).reverse with
      | some (directory _) => makeDirectories? (n :: here) ns root
      | some (file _) => none
      | none => do makeDirectories? (n :: here) ns (← put? empty (n :: here).reverse root)

/-- The names on the way to the directory that a path stands in. -/
def parentNames (path : String) : List String :=
  (((names path).filter fun n => n ≠ [] && n ≠ ['.']).map String.ofList).dropLast

/-- Writes a file at the `place?` of a path, in place of a file that is there. -/
def write? (path : String) (bytes : ByteArray) (root : Tree) : Option Tree := do
  let place ← root.place? path
  match root.get? place with
  | some (directory _) => none
  | _ => put? (file bytes) place root

/-- Writes a file by `write?`, after `makeDirectories?` has made those on the way to it. -/
def save? (path : String) (bytes : ByteArray) (root : Tree) : Option Tree := do
  let root ← makeDirectories? [] (parentNames path) root
  root.write? path bytes

/-! ## what is found after writing -/

theorem get?_put {new : Tree} {ns : List String} {t u : Tree} (h : put? new ns t = some u) :
    get? ns u = some new := by
  induction ns generalizing t u with
  | nil => simp [put?] at h; simp [get?, h]
  | cons n ns ih =>
    cases t with
    | file _ => cases ns <;> simp [put?] at h
    | directory es =>
      cases ns with
      | nil =>
        simp [put?] at h
        subst h
        simp [get?, Document.Entries.get?_insert]
      | cons m ns =>
        simp only [put?] at h
        cases hc : Document.Entries.get? n es with
        | none => simp [hc] at h
        | some child =>
          cases hp : put? new (m :: ns) child with
          | none => simp [hc, hp] at h
          | some child' =>
            simp [hc, hp] at h
            subst h
            simp [get?, Document.Entries.get?_insert, ih hp]

end Tree

end Extraction.Files
