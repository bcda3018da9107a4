import Extraction.Text.Split
import Extraction.Transition.Token

/-!
# Extraction.Transition.Expression

Reading transition expressions, `a>b>c#integer#positive|name`: segments of a path,
names of assertions, and an alias.

Three scans look at the same text.  The path is cut at each `>`, and a segment ends
at its first `#` or `|`; assertion names follow each `#`; the alias follows the only
`|`.  The module holds the pieces that the scans cut a text into, and the faults that
they can find.

* `mem_sortNames`, `pairwise_sortNames` — sorting keeps the names and puts them in order.
-/

namespace Extraction.Transition

/-- What can be wrong with an expression. -/
inductive Fault where
  | emptySegment
  | emptyAssertion
  | unknownAssertion (name : String)
  | emptyAlias
  | severalAliases
deriving DecidableEq, Repr

/-- The message of a fault. -/
def Fault.message : Fault → String
  | emptySegment => "empty path segment"
  | emptyAssertion => "empty assertion name"
  | unknownAssertion name => "unknown assertion '" ++ name ++ "'"
  | emptyAlias => "empty alias"
  | severalAliases => "only one alias permitted"

namespace Expression

def pathDelimiter : Char := '>'
def assertionDelimiter : Char := '#'
def aliasDelimiter : Char := '|'

/-- The delimiters that end a segment. -/
def isSuffixDelimiter (c : Char) : Bool := c = assertionDelimiter || c = aliasDelimiter

/-! ## the path -/

/-- The key of a segment: what stands before its suffix. -/
def key (segment : List Char) : List Char := Text.before isSuffixDelimiter segment

/-- Only the last segment may carry a suffix: earlier ones that do are left out. -/
def keys : List (List Char) → List (List Char)
  | [] => []
  | [last] => [key last]
  | segment :: rest =>
    if segment.any isSuffixDelimiter then keys rest else segment :: keys rest

/-- The segments of the path of an expression: the `keys` of what stands between its `>`. -/
def path (cs : List Char) : List (List Char) := keys (Text.split pathDelimiter cs)

/-! ## the names of assertions -/

/-- Applies a function to the last item of a list. -/
def mapLast {α : Type} (f : α → α) : List α → List α
  | [] => []
  | [x] => [f x]
  | x :: xs => x :: mapLast f xs

/-- The pieces after each `#`, the last one cut at its first `|`. -/
def pieces (cs : List Char) : List (List Char) :=
  mapLast (Text.before fun c => c = aliasDelimiter) ((Text.split assertionDelimiter cs).drop 1)

/-- Adds a name to an increasing list of names, unless it is there; a step of `sortNames`. -/
def insertName (name : String) : List String → List String
  | [] => [name]
  | n :: ns =>
    if name < n then name :: n :: ns
    else if name = n then n :: ns
    else n :: insertName name ns

/-- The distinct names of a list in increasing order. -/
def sortNames (ns : List String) : List String := ns.foldr insertName []

theorem mem_insertName {name n : String} {ns : List String} :
    n ∈ insertName name ns ↔ n = name ∨ n ∈ ns := by
  induction ns with
  | nil => simp [insertName]
  | cons m ms ih =>
    simp only [insertName]
    split
    · simp
    · split
      · rename_i h; subst h; simp
      · simp only [List.mem_cons, ih]; grind

/-- `sortNames` keeps every name, and adds none. -/
theorem mem_sortNames {n : String} {ns : List String} : n ∈ sortNames ns ↔ n ∈ ns := by
  induction ns with
  | nil => simp [sortNames]
  | cons m ms ih => simpa [sortNames, mem_insertName] using or_congr_right ih

/-- `insertName` keeps an increasing list increasing. -/
theorem pairwise_insertName (name : String) {ns : List String} (h : ns.Pairwise (· < ·)) :
    (insertName name ns).Pairwise (· < ·) := by
  induction ns with
  | nil => simp [insertName]
  | cons m ms ih =>
    obtain ⟨hm, hms⟩ := List.pairwise_cons.1 h
    simp only [insertName]
    split
    · rename_i hlt
      refine List.pairwise_cons.2 ⟨fun x hx => ?_, h⟩
      rcases List.mem_cons.1 hx with rfl | hx
      · exact hlt
      · exact String.lt_trans hlt (hm x hx)
    · split
      · exact h
      · rename_i hlt hne
        refine List.pairwise_cons.2 ⟨fun x hx => ?_, ih hms⟩
        rcases mem_insertName.1 hx with rfl | hx
        · exact String.not_le.1 fun hle => hne (String.le_antisymm hle (String.not_lt.1 hlt))
        · exact hm x hx

/-- `sortNames` answers an increasing list, and so each name once. -/
theorem pairwise_sortNames (ns : List String) : (sortNames ns).Pairwise (· < ·) := by
  induction ns with
  | nil => exact List.Pairwise.nil
  | cons n ns ih => exact pairwise_insertName n ih

/-- The assertion names of an expression: its `pieces`, distinct and increasing. -/
def names (cs : List Char) : List String := sortNames ((pieces cs).map String.ofList)

end Expression

end Extraction.Transition
