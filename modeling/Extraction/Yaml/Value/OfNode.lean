import Extraction.Yaml.Anchor
import Extraction.Yaml.Scalar
import Extraction.Yaml.Value

/-!
# Extraction.Yaml.Value.OfNode

The value of a document's node.  A reference stands for a copy of the node that it
names; how deep values nest, and how many references are followed, is bounded.
-/

namespace Extraction.Yaml

open Document (Number)

/-- How deep collections may nest. -/
def maxNesting : Nat := 128

/-- How many references may be followed for each mark of the document's linear form. -/
def referencesPerMark : Nat := 100

/-! ## tags -/

/-- The core meaning that a tag gives to a scalar. -/
inductive CoreTag where
  | null
  | boolean
  | integer
  | float
deriving DecidableEq

def coreTag? (tag : String) : Option CoreTag :=
  if tag = "tag:yaml.org,2002:null" then some .null
  else if tag = "tag:yaml.org,2002:bool" then some .boolean
  else if tag = "tag:yaml.org,2002:int" then some .integer
  else if tag = "tag:yaml.org,2002:float" then some .float
  else none

/-- The name of a tag of the document's own: it begins with a mark. -/
def ownTag? (tag : Option String) : Option String :=
  match tag.map String.toList with
  | some ['!'] => some "!"
  | some ('!' :: name) => some (String.ofList name)
  | _ => none

/-- A value under the tag of its node; a tag that is not the document's own is dropped. -/
def Value.under (tag : Option String) (v : Value) : Value :=
  match ownTag? tag with
  | some name => .tagged name v
  | none => v

/-! ## scalars -/

/-- The value of an integer, which has to fit 64 bits. -/
def integerValue (n : Int) : Except Error Value :=
  match Number.ofInt? n with
  | some n => .ok (.number n)
  | none => .error .numberOutOfRange

/-- The value of a plain scalar. -/
def plainValue (s : String) : Except Error Value :=
  match resolve s with
  | .null => .ok .null
  | .boolean b => .ok (.boolean b)
  | .integer n => integerValue n
  | .float x => .ok (.number (.float x))
  | .text => .ok (.string s)

/-- The value of a scalar that its tag requires to be of a kind. -/
def coreValue (s : String) : CoreTag → Except Error Value
  | .null => if isNullWord s then .ok .null else .error .notOfItsTag
  | .boolean =>
    match boolean? s with
    | some b => .ok (.boolean b)
    | none => .error .notOfItsTag
  | .integer =>
    match integer? s.toList with
    | some n => integerValue n
    | none => .error .notOfItsTag
  | .float =>
    match float? s with
    | some x => .ok (.number (.float x))
    | none => .error .notOfItsTag

/-- The value of a scalar. -/
def scalarValue (tag : Option String) (plain : Bool) (s : String) : Except Error Value :=
  match tag.bind coreTag? with
  | some t => coreValue s t
  | none =>
    if plain && (tag.isNone || (ownTag? tag).isSome) then
      (plainValue s).map (Value.under tag)
    else .ok (Value.under tag (.string s))

/-! ## nodes -/

/-- What references lead to, and how many of them may be followed. -/
structure Links where
  fillings : Fillings
  limit : Nat

/-- Reading values counts the references that were followed. -/
abbrev Counting := StateT Nat (Except Error)

/-- The node that a node stands for. -/
def Links.target (l : Links) : Node Nat → Counting (Node Nat)
  | .reference slot => do
    let followed ← get
    if l.limit ≤ followed then throw .tooManyReferences
    set (followed + 1)
    match l.fillings.lookup slot with
    | some n => return n
    | none => throw .unknownAnchor
  | n => return n

/-- The mapping with some entries, whose keys have to be distinct. -/
def mappingValue (entries : List (Value × Value)) : Except Error Value :=
  if Value.hasRepeat (entries.map Prod.fst) then .error .repeatedKey else .ok (.mapping entries)

/-- The value of a node in which collections may nest to a depth. -/
def Links.value (l : Links) : Nat → Node Nat → Counting Value
  | 0, n => do
    match ← l.target n with
    | .scalar _ tag plain s => scalarValue tag plain s
    | _ => throw .nestedTooDeeply
  | depth + 1, n => do
    match ← l.target n with
    | .scalar _ tag plain s => scalarValue tag plain s
    | .sequence _ tag items => return .under tag (.sequence (← items.mapM (l.value depth)))
    | .mapping _ tag entries =>
      let entries ← entries.mapM fun e => do return (← l.value depth e.1, ← l.value depth e.2)
      return .under tag (← mappingValue entries)
    | .reference _ => throw .unknownAnchor

/-- The value of a document. -/
def Value.ofNode (n : Node String) : Except Error Value := do
  let (n, fillings, _) ← n.link []
  let links : Links := ⟨fillings, referencesPerMark * n.size⟩
  return (← (links.value maxNesting n).run 0).1

end Extraction.Yaml
