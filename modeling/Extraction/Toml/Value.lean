import Extraction.Document.Entries

/-!
# Extraction.Toml.Value

TOML values, and tables under construction.  A table remembers how it came to be, for
that decides what may still be added to it: a table that was opened by a header, one
that was only named on the way to another header, and one that was named in a dotted
key.
-/

namespace Extraction.Toml

open Document (Entries)

/-- A value.  A date or a time is kept as its text. -/
inductive Value where
  | string (s : String)
  | integer (n : Int)
  | float (x : Float)
  | boolean (b : Bool)
  | moment (text : String)
  | array (items : List Value)
  | table (entries : List (String × Value))

/-- How a table came to be. -/
inductive Origin where
  /-- It has a header of its own. -/
  | header
  /-- A header further down named it. -/
  | passed
  /-- A dotted key named it. -/
  | dotted
deriving DecidableEq

/-- What is stored under a key of a table under construction. -/
inductive Item where
  | value (v : Value)
  | table (origin : Origin) (entries : List (String × Item))
  | tables (items : List (List (String × Item)))

/-- A table under construction. -/
abbrev Table := Entries Item

namespace Table

/-- Changes the table that names lead to.  Tables that are missing on the way are made;
of a list of tables the last one is meant.  By a dotted key only tables without a
header of their own are entered. -/
def change? (dotted : Bool) (f : Origin → Table → Option Table) :
    List String → Origin → Table → Option Table
  | [], origin, t => f origin t
  | n :: ns, _, t =>
    match Entries.get? n t with
    | none => do
      let origin := if dotted then .dotted else .passed
      let inner ← change? dotted f ns origin []
      return Entries.insert n (.table origin inner) t
    | some (.table origin inner) =>
      if dotted && origin = .header then none
      else do
        let inner ← change? dotted f ns origin inner
        return Entries.insert n (.table origin inner) t
    | some (.tables items) => do
      let last ← items.getLast?
      let last ← change? dotted f ns .header last
      return Entries.insert n (.tables (items.dropLast ++ [last])) t
    | some (.value _) => none

/-- Adds a value under a new key.  A table that is reached by a dotted key has to be
made by dotted keys alone. -/
def add? (way : List String) (key : String) (v : Value) (t : Table) : Option Table :=
  change? true (fun origin t =>
    if decide (origin = .dotted) == way.isEmpty || (Entries.get? key t).isSome then none
    else some (Entries.insert key (.value v) t)) way .header t

/-- Opens a table by its header: a new one, or one that headers have passed. -/
def openTable? (way : List String) (key : String) (t : Table) : Option Table :=
  change? false (fun _ t =>
    match Entries.get? key t with
    | none => some (Entries.insert key (.table .header []) t)
    | some (.table .passed inner) => some (Entries.insert key (.table .header inner) t)
    | some _ => none) way .header t

/-- Appends a table to a list of tables by its header. -/
def appendTable? (way : List String) (key : String) (t : Table) : Option Table :=
  change? false (fun _ t =>
    match Entries.get? key t with
    | none => some (Entries.insert key (.tables [[]]) t)
    | some (.tables items) => some (Entries.insert key (.tables (items ++ [[]])) t)
    | some _ => none) way .header t

end Table

/-! ## finished tables -/

namespace Item

mutual

/-- The value of an item. -/
def toValue : Item → Value
  | value v => v
  | table _ es => .table (entriesToValue es)
  | tables items => .array (tablesToValue items)

def entriesToValue : List (String × Item) → List (String × Value)
  | [] => []
  | (k, x) :: es => (k, x.toValue) :: entriesToValue es

def tablesToValue : List (List (String × Item)) → List Value
  | [] => []
  | es :: items => .table (entriesToValue es) :: tablesToValue items

end

end Item

end Extraction.Toml
