import Extraction.Document.Entries
import Extraction.Yaml.Node

/-!
# Extraction.Yaml.Anchor

Linking references to the nodes they name.  An anchor gets the slot whose number is
the count of distinct anchor names before it; a name that is given again moves to a
new slot, and references from there on follow it.  Where two nodes share a slot, the
one that begins later fills it.
-/

namespace Extraction.Yaml

/-- The slot of each anchor name so far. -/
abbrev Slots := Document.Entries Nat

/-- The slot of a node's anchor, and the slots after it. -/
def Slots.enter (slots : Slots) : Option String → Option Nat × Slots
  | none => (none, slots)
  | some a => (some slots.length, Document.Entries.insert a slots.length slots)

/-- What fills the slots, the nodes that begin last first. -/
abbrev Fillings := List (Nat × Node Nat)

/-- The filling of a node's own slot, behind those of the nodes inside it. -/
def fill (slot : Option Nat) (n : Node Nat) (inner : Fillings) : Fillings :=
  match slot with
  | none => inner
  | some i => inner ++ [(i, n)]

namespace Node

mutual

/-- Links the references of a node. -/
def link (slots : Slots) : Node String → Except Error (Node Nat × Fillings × Slots)
  | reference a =>
    match Document.Entries.get? a slots with
    | some i => .ok (reference i, [], slots)
    | none => .error .unknownAnchor
  | scalar a tag plain text =>
    let (slot, slots) := slots.enter a
    let n := scalar slot tag plain text
    .ok (n, fill slot n [], slots)
  | sequence a tag items => do
    let (slot, slots) := slots.enter a
    let (items, inner, slots) ← linkItems slots items
    let n := sequence slot tag items
    return (n, fill slot n inner, slots)
  | mapping a tag entries => do
    let (slot, slots) := slots.enter a
    let (entries, inner, slots) ← linkEntries slots entries
    let n := mapping slot tag entries
    return (n, fill slot n inner, slots)

def linkItems (slots : Slots) :
    List (Node String) → Except Error (List (Node Nat) × Fillings × Slots)
  | [] => .ok ([], [], slots)
  | n :: ns => do
    let (n, first, slots) ← n.link slots
    let (ns, later, slots) ← linkItems slots ns
    return (n :: ns, later ++ first, slots)

def linkEntries (slots : Slots) :
    List (Node String × Node String) → Except Error (List (Node Nat × Node Nat) × Fillings × Slots)
  | [] => .ok ([], [], slots)
  | (k, v) :: es => do
    let (k, first, slots) ← k.link slots
    let (v, second, slots) ← v.link slots
    let (es, later, slots) ← linkEntries slots es
    return ((k, v) :: es, later ++ second ++ first, slots)

end

end Node

end Extraction.Yaml
