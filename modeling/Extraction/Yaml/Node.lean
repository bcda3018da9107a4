import Extraction.Yaml.Token

/-!
# Extraction.Yaml.Node

The nodes of a document, and the grammar that builds them from tokens.  A node that is
left out is an empty plain scalar.

* `document` reads the one document of a token sequence.
-/

namespace Extraction.Yaml

/-- A node; `α` is how nodes are referred to. -/
inductive Node (α : Type) where
  | reference (target : α)
  | scalar (anchor : Option α) (tag : Option String) (plain : Bool) (text : String)
  | sequence (anchor : Option α) (tag : Option String) (items : List (Node α))
  | mapping (anchor : Option α) (tag : Option String) (entries : List (Node α × Node α))

namespace Node

/-- A node that is left out. -/
def empty {α : Type} : Node α := scalar none none true ""

mutual

/-- The number of marks in the linear form of a node: one for a scalar or a reference,
two for a collection besides its members. -/
def size {α : Type} : Node α → Nat
  | reference _ | scalar .. => 1
  | sequence _ _ items => 2 + sizeItems items
  | mapping _ _ entries => 2 + sizeEntries entries

def sizeItems {α : Type} : List (Node α) → Nat
  | [] => 0
  | n :: ns => n.size + sizeItems ns

def sizeEntries {α : Type} : List (Node α × Node α) → Nat
  | [] => 0
  | (k, v) :: es => k.size + v.size + sizeEntries es

end

end Node

/-! ## properties -/

/-- What tag handles mean, the latest first. -/
abbrev Handles := List (String × String)

/-- The two handles that need no directive. -/
def Handles.standard : Handles := [("!", "!"), ("!!", "tag:yaml.org,2002:")]

/-- The tag that a handle and a suffix denote. -/
def Handles.resolve (handles : Handles) (handle suffix : String) : Except Error String :=
  if handle = "" then .ok suffix
  else
    match handles.lookup handle with
    | some meaning => .ok (meaning ++ suffix)
    | none => .error .unknownHandle

/-- The anchor and the tag before a node. -/
structure Properties where
  anchor : Option String
  tag : Option String

/-- Reads properties, in either order. -/
def properties (handles : Handles) : List Token → Except Error (Properties × List Token)
  | .anchor a :: .tag h s :: ts => do return (⟨some a, some (← handles.resolve h s)⟩, ts)
  | .anchor a :: ts => .ok (⟨some a, none⟩, ts)
  | .tag h s :: .anchor a :: ts => do return (⟨some a, some (← handles.resolve h s)⟩, ts)
  | .tag h s :: ts => do return (⟨none, some (← handles.resolve h s)⟩, ts)
  | ts => .ok (⟨none, none⟩, ts)

/-- A scalar with its properties.  The mark alone is no tag of a scalar. -/
def Properties.scalar (ps : Properties) (plain : Bool) (text : String) : Node String :=
  .scalar ps.anchor (if ps.tag = some "!" then none else ps.tag) plain text

/-- What stands for a node that has properties only. -/
def Properties.alone (ps : Properties) : Except Error (Node String) :=
  if ps.anchor.isNone && ps.tag.isNone then .error .unexpectedToken
  else .ok (.scalar ps.anchor ps.tag true "")

/-! ## the grammar -/

/-- Where a node stands. -/
inductive Context where
  | block
  /-- After a key or a colon, where a sequence need not be indented. -/
  | entry
  | flow
deriving DecidableEq

/-- The tokens after which a key or a value in a block mapping is left out. -/
def endsEntry : List Token → Bool
  | .key :: _ | .value :: _ | .blockEnd :: _ => true
  | _ => false

/-- The tokens after which an item of a block sequence is left out. -/
def endsItem : List Token → Bool
  | .item :: _ | .blockEnd :: _ => true
  | _ => false

/-- The tokens after which an item of a sequence without indentation is left out. -/
def endsEntryItem (ts : List Token) : Bool := endsItem ts || endsEntry ts

/-- The tokens after which a value in brackets is left out. -/
def endsFlow (close : Token) : List Token → Bool
  | .comma :: _ => true
  | t :: _ => t == close
  | [] => false

/-- The tokens after which a key in brackets is left out. -/
def endsFlowKey (close : Token) : List Token → Bool
  | .value :: _ => true
  | ts => endsFlow close ts

/-- Drops the comma before an item that is not the first. -/
def afterComma (first : Bool) : List Token → Except Error (List Token)
  | .comma :: ts => if first then .ok (.comma :: ts) else .ok ts
  | ts => if first then .ok ts else .error .unexpectedToken

mutual

/-- Reads a node.  `fuel` bounds the number of tokens. -/
def node (handles : Handles) : Nat → Context → List Token → Except Error (Node String × List Token)
  | 0, _, _ => .error .unexpectedToken
  | _ + 1, _, .reference a :: ts => .ok (.reference a, ts)
  | fuel + 1, context, ts => do
    let (ps, ts) ← properties handles ts
    match ts with
    | .scalar plain text :: ts => return (ps.scalar plain text, ts)
    | .flowSequenceStart :: ts =>
      let (items, ts) ← flowItems handles fuel true ts
      return (.sequence ps.anchor ps.tag items, ts)
    | .flowMappingStart :: ts =>
      let (entries, ts) ← flowEntries handles fuel true ts
      return (.mapping ps.anchor ps.tag entries, ts)
    | .item :: _ =>
      if context = .entry then
        let (items, ts) ← entryItems handles fuel ts
        return (.sequence ps.anchor ps.tag items, ts)
      else return (← ps.alone, ts)
    | .sequenceStart :: rest =>
      if context = .flow then return (← ps.alone, ts)
      else
        let (items, ts) ← blockItems handles fuel rest
        return (.sequence ps.anchor ps.tag items, ts)
    | .mappingStart :: rest =>
      if context = .flow then return (← ps.alone, ts)
      else
        let (entries, ts) ← blockEntries handles fuel rest
        return (.mapping ps.anchor ps.tag entries, ts)
    | ts => return (← ps.alone, ts)

/-- Reads the items of a block sequence, and its end. -/
def blockItems (handles : Handles) :
    Nat → List Token → Except Error (List (Node String) × List Token)
  | 0, _ => .error .unexpectedToken
  | _ + 1, .blockEnd :: ts => .ok ([], ts)
  | fuel + 1, .item :: ts => do
    let (x, ts) ← if endsItem ts then .ok (.empty, ts) else node handles fuel .block ts
    let (xs, ts) ← blockItems handles fuel ts
    return (x :: xs, ts)
  | _ + 1, _ => .error .unexpectedToken

/-- Reads the items of a sequence without indentation; it ends where no dash follows. -/
def entryItems (handles : Handles) :
    Nat → List Token → Except Error (List (Node String) × List Token)
  | 0, _ => .error .unexpectedToken
  | fuel + 1, .item :: ts => do
    let (x, ts) ← if endsEntryItem ts then .ok (.empty, ts) else node handles fuel .block ts
    let (xs, ts) ← entryItems handles fuel ts
    return (x :: xs, ts)
  | _ + 1, ts => .ok ([], ts)

/-- Reads the entries of a block mapping, and its end. -/
def blockEntries (handles : Handles) :
    Nat → List Token → Except Error (List (Node String × Node String) × List Token)
  | 0, _ => .error .unexpectedToken
  | _ + 1, .blockEnd :: ts => .ok ([], ts)
  | fuel + 1, .key :: ts => do
    let (k, ts) ← if endsEntry ts then .ok (.empty, ts) else node handles fuel .entry ts
    let (v, ts) ← match ts with
      | .value :: ts => if endsEntry ts then .ok (.empty, ts) else node handles fuel .entry ts
      | ts => .ok (.empty, ts)
    let (es, ts) ← blockEntries handles fuel ts
    return ((k, v) :: es, ts)
  | _ + 1, _ => .error .unexpectedToken

/-- Reads the items of a sequence in brackets, and its end.  An item may be a single
entry; where its key is left out, the token after the question mark is passed over. -/
def flowItems (handles : Handles) :
    Nat → Bool → List Token → Except Error (List (Node String) × List Token)
  | 0, _, _ => .error .unexpectedToken
  | _ + 1, _, .flowSequenceEnd :: ts => .ok ([], ts)
  | fuel + 1, first, ts => do
    match ← afterComma first ts with
    | .flowSequenceEnd :: ts => return ([], ts)
    | .key :: ts =>
      let (k, ts) ←
        if endsFlowKey .flowSequenceEnd ts then .ok (.empty, ts.drop 1)
        else node handles fuel .flow ts
      let (v, ts) ← flowValue handles fuel .flowSequenceEnd ts
      let (xs, ts) ← flowItems handles fuel false ts
      return (.mapping none none [(k, v)] :: xs, ts)
    | ts =>
      let (x, ts) ← node handles fuel .flow ts
      let (xs, ts) ← flowItems handles fuel false ts
      return (x :: xs, ts)

/-- Reads the entries of a mapping in brackets, and its end. -/
def flowEntries (handles : Handles) :
    Nat → Bool → List Token → Except Error (List (Node String × Node String) × List Token)
  | 0, _, _ => .error .unexpectedToken
  | _ + 1, _, .flowMappingEnd :: ts => .ok ([], ts)
  | fuel + 1, first, ts => do
    match ← afterComma first ts with
    | .flowMappingEnd :: ts => return ([], ts)
    | .key :: ts =>
      let (k, ts) ←
        if endsFlowKey .flowMappingEnd ts then .ok (.empty, ts) else node handles fuel .flow ts
      let (v, ts) ← flowValue handles fuel .flowMappingEnd ts
      let (es, ts) ← flowEntries handles fuel false ts
      return ((k, v) :: es, ts)
    | ts =>
      let (k, ts) ← node handles fuel .flow ts
      let (es, ts) ← flowEntries handles fuel false ts
      return ((k, .empty) :: es, ts)

/-- Reads a colon and the value after it in brackets, if there is a colon. -/
def flowValue (handles : Handles) :
    Nat → Token → List Token → Except Error (Node String × List Token)
  | 0, _, _ => .error .unexpectedToken
  | fuel + 1, close, .value :: ts =>
    if endsFlow close ts then .ok (.empty, ts) else node handles fuel .flow ts
  | _ + 1, _, ts => .ok (.empty, ts)

end

/-! ## documents -/

/-- Reads the directives before a document: at most one version, which is 1.1 or 1.2,
and one meaning for each handle. -/
def directives (versioned : Bool) (handles : Handles) :
    List Token → Except Error (Handles × List Token)
  | .version major minor :: ts =>
    if versioned then .error .repeatedDirective
    else if major = 1 && (minor = 1 || minor = 2) then directives true handles ts
    else .error .unknownVersion
  | .handle name meaning :: ts =>
    if (handles.lookup name).isSome then .error .repeatedDirective
    else directives versioned ((name, meaning) :: handles) ts
  | ts => .ok (handles ++ Handles.standard, ts)

/-- Reads the node of a document; it may be left out after the marker of its start. -/
def content (handles : Handles) (ts : List Token) : Except Error (Node String × List Token) :=
  match ts with
  | [] | .version .. :: _ | .handle .. :: _ | .documentStart :: _ | .documentEnd :: _ =>
    .ok (.empty, ts)
  | ts => node handles (2 * ts.length + 2) .block ts

/-- Reads the first document; its marker may be left out if no directive is there. -/
def firstDocument (ts : List Token) : Except Error (Node String × List Token) := do
  match ts with
  | [] => return (.empty, [])
  | .version .. :: _ | .handle .. :: _ | .documentStart :: _ =>
    let (handles, ts) ← directives false [] ts
    match ts with
    | .documentStart :: ts => content handles ts
    | _ => throw .unexpectedToken
  | ts => node .standard (2 * ts.length + 2) .block ts

/-- The document of a token sequence that holds at most one. -/
def document (ts : List Token) : Except Error (Node String) := do
  let (n, ts) ← firstDocument ts
  match ts.dropWhile (· == .documentEnd) with
  | [] => return n
  | _ => throw .moreThanOneDocument

end Extraction.Yaml
