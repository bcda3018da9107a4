import Extraction.Toml.Moment
import Extraction.Toml.Number
import Extraction.Toml.Text

/-!
# Extraction.Toml.Reader

Reading a TOML document: entries and headers of tables, one to a line.
-/

namespace Extraction.Toml

/-- How deep lists and inline tables may nest. -/
def maxNesting : Nat := 79

/-- The largest number of keys between dots. -/
def maxKeys : Nat := 79

/-! ## between values -/

def isBlank (c : Char) : Bool := c = ' ' || c = '\t'

def skip (cs : List Char) : List Char := cs.dropWhile isBlank

/-- The text after a comment, up to the end of its line. -/
def skipComment : List Char → List Char
  | '#' :: cs => cs.dropWhile fun c => !(isControl c)
  | cs => cs

/-- The text after the end of a line, which may have a comment. -/
def endLine? (cs : List Char) : Option (List Char) :=
  match skipComment (skip cs) with
  | [] => some []
  | cs => afterBreak? cs

/-- Skips blanks, comments and line breaks.  `fuel` bounds the number of lines. -/
def skipLines : Nat → List Char → List Char
  | 0, cs => cs
  | fuel + 1, cs =>
    match afterBreak? (skipComment (skip cs)) with
    | some rest => skipLines fuel rest
    | none => skip cs

/-! ## keys -/

/-- The characters of a key without marks. -/
def isKeyChar (c : Char) : Bool :=
  ('0' ≤ c && c ≤ '9') || ('A' ≤ c && c ≤ 'Z') || ('a' ≤ c && c ≤ 'z') || c = '-' || c = '_'

/-- Reads one key. -/
def readKey? (cs : List Char) : Option (String × List Char) :=
  match cs with
  | '"' :: cs => (readBasic? cs).map fun r => (String.ofList r.1, r.2)
  | '\'' :: cs => (readLiteral? cs).map fun r => (String.ofList r.1, r.2)
  | cs =>
    let key := cs.takeWhile isKeyChar
    if key.isEmpty then none else some (String.ofList key, cs.dropWhile isKeyChar)

/-- Reads keys with dots between them, up to a number of keys. -/
def readKeys? : Nat → List Char → Option (List String × List Char)
  | 0, _ => none
  | n + 1, cs => do
    let (key, cs) ← readKey? (skip cs)
    match skip cs with
    | '.' :: cs =>
      let (keys, cs) ← readKeys? n cs
      return (key :: keys, cs)
    | cs => return ([key], cs)

/-- Reads a dotted key: the way to its table, and its last part. -/
def readDotted? (cs : List Char) : Option (List String × String × List Char) := do
  let (keys, cs) ← readKeys? maxKeys cs
  return (keys.dropLast, ← keys.getLast?, cs)

/-! ## values -/

/-- Reads a word. -/
def readBoolean? : List Char → Option (Value × List Char)
  | 't' :: 'r' :: 'u' :: 'e' :: cs => some (.boolean true, cs)
  | 'f' :: 'a' :: 'l' :: 's' :: 'e' :: cs => some (.boolean false, cs)
  | _ => none

/-- Reads a scalar other than a string. -/
def readScalar? (cs : List Char) : Option (Value × List Char) :=
  match readMoment? cs with
  | some r => r
  | none => (readBoolean? cs).or (readNumber? cs)

mutual

/-- Reads a value.  `fuel` bounds the number of characters, `nesting` is how many lists
and inline tables may still be opened inside each other. -/
def readValue? : Nat → Nat → List Char → Option (Value × List Char)
  | 0, _, _ => none
  | fuel + 1, nesting, cs =>
    match cs with
    | [] => none
    | c :: rest =>
      if c = '"' || c = '\'' then (readString? cs).map fun r => (.string (String.ofList r.1), r.2)
      else if c = '[' then
        match nesting with
        | 0 => none
        | nesting + 1 => (readItems? fuel nesting rest).map fun r => (.array r.1, r.2)
      else if c = '\x7b' then
        match nesting with
        | 0 => none
        | nesting + 1 => do
          let (t, cs) ←
            match skip rest with
            | '\x7d' :: cs => some ([], cs)
            | _ => readEntries? fuel nesting [] rest
          return (.table (Item.entriesToValue t), cs)
      else readScalar? cs

/-- Reads the items of a list up to its closing bracket; a comma may stand after the
last one. -/
def readItems? : Nat → Nat → List Char → Option (List Value × List Char)
  | 0, _, _ => none
  | fuel + 1, nesting, cs =>
    match skipLines (fuel + 1) cs with
    | ']' :: cs => some ([], cs)
    | cs => do
      let (v, cs) ← readValue? fuel nesting cs
      match skipLines (fuel + 1) cs with
      | ',' :: cs => (readItems? fuel nesting cs).map fun r => (v :: r.1, r.2)
      | ']' :: cs => return ([v], cs)
      | _ => none

/-- Reads the entries of an inline table up to its closing brace, and adds them to
those before. -/
def readEntries? : Nat → Nat → Table → List Char → Option (Table × List Char)
  | 0, _, _, _ => none
  | fuel + 1, nesting, t, cs => do
    let (way, key, cs) ← readDotted? cs
    let cs ← after? '=' cs
    let (v, cs) ← readValue? fuel nesting (skip cs)
    let t ← t.add? way key v
    match skip cs with
    | ',' :: cs => readEntries? fuel nesting t cs
    | '\x7d' :: cs => return (t, cs)
    | _ => none

end

/-! ## documents -/

/-- A document under construction. -/
structure Draft where
  root : Table
  /-- The keys of the last header. -/
  current : List String

/-- Reads the header of a table up to the end of its line. -/
def readHeader? (d : Draft) (cs : List Char) : Option (Draft × List Char) :=
  match cs with
  | '[' :: cs => do
    let (way, key, cs) ← readDotted? cs
    let cs ← endLine? (← after? ']' (← after? ']' cs))
    return (⟨← d.root.appendTable? way key, way ++ [key]⟩, cs)
  | cs => do
    let (way, key, cs) ← readDotted? cs
    let cs ← endLine? (← after? ']' cs)
    return (⟨← d.root.openTable? way key, way ++ [key]⟩, cs)

/-- Reads an entry up to the end of its line. -/
def readEntry? (fuel : Nat) (d : Draft) (cs : List Char) : Option (Draft × List Char) := do
  let (way, key, cs) ← readDotted? cs
  let cs ← after? '=' cs
  let (v, cs) ← readValue? fuel maxNesting (skip cs)
  let cs ← endLine? cs
  let root ← d.root.change? false (fun _ t => t.add? way key v) d.current .header
  return (⟨root, d.current⟩, cs)

/-- Reads the lines of a document.  `fuel` bounds the number of characters. -/
def readLines? : Nat → Draft → List Char → Option Draft
  | 0, _, _ => none
  | fuel + 1, d, cs =>
    match skip cs with
    | [] => some d
    | '[' :: cs => do
      let (d, cs) ← readHeader? d cs
      readLines? fuel d cs
    | c :: cs =>
      if c = '#' || c = '\n' || c = '\r' then do readLines? fuel d (← endLine? (c :: cs))
      else do
        let (d, cs) ← readEntry? fuel d (c :: cs)
        readLines? fuel d cs

/-- A text without a byte order mark at its beginning. -/
def dropMark : List Char → List Char
  | '\ufeff' :: cs => cs
  | cs => cs

/-- The table of a document, if the text is one. -/
def read? (text : String) : Option (List (String × Value)) :=
  let cs := dropMark text.toList
  (readLines? (2 * cs.length + 2) ⟨[], []⟩ cs).map fun d => Item.entriesToValue d.root

end Extraction.Toml
