import Extraction.Log.Entry
import Extraction.Text.Blank
import Extraction.Text.Letter
import Extraction.Text.Split

/-!
# Extraction.Log.Filter

Which entries get into the log.  A filter is written as directives with commas between
them: a level for all targets, or a target and a level with an equals sign between
them.  After a slash a text may follow that an entry has to contain.

* Of the directives whose target begins the target of an entry the longest one decides.
* A filter without directives admits errors only.
-/

namespace Extraction.Log

/-- How much of the log is admitted: levels up to one, or nothing. -/
structure Directive where
  /-- The beginning of the targets meant; all targets if there is none. -/
  target : Option String
  /-- The largest rank that is admitted. -/
  rank : Nat

/-- A filter: its directives, the shortest targets first as `Directive.length` has it, and a text
to be contained. -/
structure Filter where
  directives : List Directive
  pattern : Option String

/-! ## reading -/

/-- The rank that a name admits; the case of its letters does not matter. -/
def rank? (name : String) : Option Nat :=
  let name := Text.lowerText name
  if name = "off" then some 0
  else if name = "error" then some Level.error.rank
  else if name = "warn" then some Level.warn.rank
  else if name = "info" then some Level.info.rank
  else if name = "debug" then some Level.debug.rank
  else if name = "trace" then some Level.trace.rank
  else none

namespace Directive

/-- Reads a directive; a target alone admits every level. -/
def read? (cs : List Char) : Option Directive :=
  match Text.split '=' cs with
  | [name] =>
    let name := String.ofList name
    match rank? name with
    | some r => some ⟨none, r⟩
    | none => some ⟨some name, Level.trace.rank⟩
  | [target, level] =>
    let level := Text.trim level
    if level.isEmpty then some ⟨some (String.ofList target), Level.trace.rank⟩
    else (rank? (String.ofList level)).map fun r => ⟨some (String.ofList target), r⟩
  | _ => none

/-- The length of a target in bytes. -/
def length (d : Directive) : Nat := (d.target.map String.utf8ByteSize).getD 0

/-- Stores a directive, in place of one for the same target; `readDirectives` stores one after the
other. -/
def store (d : Directive) : List Directive → List Directive
  | [] => [d]
  | e :: es => if e.target = d.target then d :: es else e :: store d es

/-- A directive is meant for a target. -/
def covers (d : Directive) (target : String) : Bool :=
  match d.target with
  | none => true
  | some t => t.toList.isPrefixOf target.toList

end Directive

namespace Filter

/-- The directives of a text; those that `Directive.read?` cannot read are left out. -/
def readDirectives (cs : List Char) : List Directive :=
  let parts := ((Text.split ',' cs).map Text.trim).filter fun p => !p.isEmpty
  (parts.filterMap Directive.read?).foldl (fun ds d => d.store ds) []

/-- A filter from its directives. -/
def ofDirectives (ds : List Directive) (pattern : Option String) : Filter :=
  if ds.isEmpty then ⟨[⟨none, Level.error.rank⟩], pattern⟩
  else ⟨ds.mergeSort fun a b => a.length ≤ b.length, pattern⟩

/-- Reads a filter; with more than one slash the text has no directives. -/
def read (text : String) : Filter :=
  match Text.split '/' text.toList with
  | [ds] => ofDirectives (readDirectives ds) none
  | [ds, pattern] => ofDirectives (readDirectives ds) (some (String.ofList pattern))
  | _ => ofDirectives [] none

/-! ## admitting -/

/-- One text occurs in another. -/
def occursIn (part : List Char) : List Char → Bool
  | [] => part.isEmpty
  | c :: cs => part.isPrefixOf (c :: cs) || occursIn part cs

/-- The filter admits an entry: the last directive that `covers` its target allows the level, and
its text holds the pattern. -/
def admits (f : Filter) (e : Entry) : Bool :=
  let level := match f.directives.reverse.find? fun d => d.covers e.target with
    | some d => e.level.rank ≤ d.rank
    | none => false
  let text := match f.pattern with
    | some p => occursIn p.toList e.text.toList
    | none => true
  level && text

end Filter

end Extraction.Log
