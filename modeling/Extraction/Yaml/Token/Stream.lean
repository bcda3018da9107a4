import Extraction.Yaml.Token.Block
import Extraction.Yaml.Token.Plain
import Extraction.Yaml.Token.Quoted
import Extraction.Yaml.Token.Tag

/-!
# Extraction.Yaml.Token.Stream

The tokens of a text.  Nesting by indentation is turned into start and end tokens,
and the beginning of a key is marked as soon as the colon after it is met: on the way
a mark remembers where a key may have begun.

A mark lasts for the line it is on and for `maxKeyLength` characters.  It is binding
where nothing but a key can stand; a binding mark that goes unused is an error.
-/

namespace Extraction.Yaml

/-- How far after its beginning the colon of a key may stand. -/
def maxKeyLength : Nat := 1024

/-- A place where a key may have begun. -/
structure KeyMark where
  binding : Bool
  /-- The number of tokens before it. -/
  number : Nat
  index : Nat
  line : Nat
  column : Nat

/-- How far a text has been read. -/
structure Progress where
  place : Place
  /-- The tokens so far, the last one first. -/
  tokens : List Token
  /-- The number of tokens so far. -/
  count : Nat
  /-- The columns of the open block collections, the innermost first. -/
  columns : List Nat
  /-- A key may begin here. -/
  keyAllowed : Bool
  /-- Where a key may have begun at this level of brackets. -/
  mark : Option KeyMark
  /-- The marks of the levels around. -/
  outerMarks : List (Option KeyMark)

namespace Progress

/-- The beginning of a text.  A byte order mark there counts as a column. -/
def start (cs : List Char) : Progress :=
  let p := Place.start cs
  ⟨if cs.head? = some '\ufeff' then p.skip 1 else p, [], 0, [], true, none, []⟩

/-- Inside brackets. -/
def flow (s : Progress) : Bool := !s.outerMarks.isEmpty

/-- The least column of a node inside the innermost block collection. -/
def margin (s : Progress) : Nat :=
  match s.columns with
  | [] => 0
  | c :: _ => c + 1

def emit (t : Token) (s : Progress) : Progress :=
  { s with tokens := t :: s.tokens, count := s.count + 1 }

/-- Emits a token that takes up some characters. -/
def take (t : Token) (width : Nat) (s : Progress) : Progress :=
  { s.emit t with place := s.place.skip width }

/-- Inserts tokens before those from a number on. -/
def insertAt (number : Nat) (ts : List Token) (s : Progress) : Progress :=
  let later := s.count - number
  { s with
    tokens := s.tokens.take later ++ ts.reverse ++ s.tokens.drop later
    count := s.count + ts.length }

/-! ## block collections -/

/-- Closes the block collections right of a column. -/
def closeBeyond (column : Nat) (s : Progress) : Progress :=
  if s.flow then s
  else
    let closed := (s.columns.takeWhile (column < ·)).length
    { s with
      tokens := List.replicate closed .blockEnd ++ s.tokens
      count := s.count + closed
      columns := s.columns.drop closed }

/-- Closes all block collections. -/
def closeAll (s : Progress) : Progress :=
  if s.flow then s
  else
    { s with
      tokens := List.replicate s.columns.length .blockEnd ++ s.tokens
      count := s.count + s.columns.length
      columns := [] }

/-- A block collection would open at a column. -/
def opensAt (column : Nat) (s : Progress) : Bool := !s.flow && s.margin ≤ column

/-- Opens a block collection at this column, if it is not open yet. -/
def openBlock (t : Token) (s : Progress) : Progress :=
  if s.opensAt s.place.column then
    { s.emit t with columns := s.place.column :: s.columns }
  else s

/-! ## marks of keys -/

/-- Drops the mark, unless it is binding. -/
def dropMark (s : Progress) : Except Error Progress :=
  match s.mark with
  | none => .ok s
  | some m => if m.binding then .error .keyWithoutValue else .ok { s with mark := none }

/-- Marks this place, if a key may begin here. -/
def setMark (s : Progress) : Except Error Progress :=
  if s.keyAllowed then do
    let s ← s.dropMark
    let binding := !s.flow && s.columns.head? = some s.place.column
    return { s with mark := some ⟨binding, s.count, s.place.index, s.place.line, s.place.column⟩ }
  else .ok s

/-- A mark that is too far back for a key. -/
def isStale (p : Place) (m : KeyMark) : Bool :=
  m.line < p.line || m.index + maxKeyLength < p.index

/-- A mark without the stale ones. -/
def refresh (p : Place) : Option KeyMark → Except Error (Option KeyMark)
  | none => .ok none
  | some m =>
    if isStale p m then if m.binding then .error .keyWithoutValue else .ok none
    else .ok (some m)

/-- Drops the stale marks of all levels. -/
def dropStale (s : Progress) : Except Error Progress := do
  let mark ← refresh s.place s.mark
  let outerMarks ← s.outerMarks.mapM (refresh s.place)
  return { s with mark, outerMarks }

/-! ## between tokens -/

/-- Moves on to the next token, over blanks, comments and line breaks.  A tab counts
as a blank only where it cannot be taken for indentation. -/
def skipGaps : Nat → Progress → Progress
  | 0, s => s
  | fuel + 1, s =>
    let tabs := s.flow || !s.keyAllowed
    let p := (s.place.skipWhile fun c => c = ' ' || (tabs && c = '\t')).skipComment
    match p.break? with
    | none => { s with place := p }
    | some (_, p) => skipGaps fuel { s with place := p, keyAllowed := s.keyAllowed || !s.flow }

/-! ## tokens -/

/-- A directive, or a marker of three characters. -/
def documentToken (s : Progress) (read : Place → Except Error (Token × Place)) :
    Except Error Progress := do
  let s ← s.closeAll.dropMark
  let (t, p) ← read s.place
  return { s.emit t with keyAllowed := false, place := p }

/-- An opening bracket. -/
def openBracket (t : Token) (s : Progress) : Except Error Progress := do
  let s ← s.setMark
  return { s.take t 1 with keyAllowed := true, mark := none, outerMarks := s.mark :: s.outerMarks }

/-- A closing bracket. -/
def closeBracket (t : Token) (s : Progress) : Except Error Progress := do
  let s ← s.dropMark
  let s := match s.outerMarks with
    | [] => s
    | m :: ms => { s with mark := m, outerMarks := ms }
  return { s.take t 1 with keyAllowed := false }

def comma (s : Progress) : Except Error Progress := do
  let s ← s.dropMark
  return { s.take .comma 1 with keyAllowed := true }

/-- The dash before an item. -/
def item (s : Progress) : Except Error Progress := do
  if !s.flow && !s.keyAllowed then throw .misplacedEntry
  let s ← (s.openBlock .sequenceStart).dropMark
  return { s.take .item 1 with keyAllowed := true }

/-- The question mark before a key. -/
def explicitKey (s : Progress) : Except Error Progress := do
  if !s.flow && !s.keyAllowed then throw .misplacedKey
  let s ← (s.openBlock .mappingStart).dropMark
  return { s.take .key 1 with keyAllowed := !s.flow }

/-- The colon before a value: the key before it begins at the mark, if there is one. -/
def value (s : Progress) : Except Error Progress :=
  match s.mark with
  | some m =>
    let s :=
      if s.opensAt m.column then
        { s.insertAt m.number [.mappingStart, .key] with columns := m.column :: s.columns }
      else s.insertAt m.number [.key]
    .ok { s.take .value 1 with keyAllowed := false, mark := none }
  | none =>
    if !s.flow && !s.keyAllowed then .error .misplacedValue
    else
      let s := s.openBlock .mappingStart
      .ok { s.take .value 1 with keyAllowed := !s.flow }

/-- A token that may be a key or begin one. -/
def nodeToken (s : Progress) (read : Place → Except Error (Token × Place)) :
    Except Error Progress := do
  let s ← s.setMark
  let (t, p) ← read s.place
  return { s.emit t with keyAllowed := false, place := p }

def quoted (q : Quote) (fuel : Nat) (p : Place) : Except Error (Token × Place) := do
  let (text, p) ← quotedFrom q fuel (p.skip 1)
  return (.scalar false (String.ofList text), p)

/-- A block scalar; a key may begin after it. -/
def block (folded : Bool) (fuel : Nat) (s : Progress) : Except Error Progress := do
  let s ← s.dropMark
  let (text, p) ← blockScalar folded s.margin fuel (s.place.skip 1)
  return { s.emit (.scalar false (String.ofList text)) with keyAllowed := true, place := p }

/-- A plain scalar; a key may begin after it if it ends its line. -/
def plain (fuel : Nat) (s : Progress) : Except Error Progress := do
  let s ← s.setMark
  let r ← plainFrom s.flow s.margin fuel [] false s.place
  let s := s.emit (.scalar true (String.ofList r.text))
  return { s with keyAllowed := r.endsLine, place := r.place }

/-- A character with what follows it begins a plain scalar. -/
def startsPlain (flow : Bool) (c : Char) (cs : List Char) : Bool :=
  !(isGap c || isIndicator c) ||
    (c = '-' && !(cs.head?.any isBlank)) ||
    (!flow && (c = '?' || c = ':') && !startsWithGap cs)

/-- Reads the token that a character with what follows it begins. -/
def nodeOrIndicator (fuel : Nat) (c : Char) (cs : List Char) (s : Progress) :
    Except Error Progress :=
  let separate := s.flow || startsWithGap cs
  if c = '[' then s.openBracket .flowSequenceStart
  else if c = '\x7b' then s.openBracket .flowMappingStart
  else if c = ']' then s.closeBracket .flowSequenceEnd
  else if c = '\x7d' then s.closeBracket .flowMappingEnd
  else if c = ',' then s.comma
  else if c = '-' && startsWithGap cs then s.item
  else if c = '?' && separate then s.explicitKey
  else if c = ':' && separate then s.value
  else if c = '*' then
    s.nodeToken fun p => (anchorName (p.skip 1)).map fun r => (.reference r.1, r.2)
  else if c = '&' then
    s.nodeToken fun p => (anchorName (p.skip 1)).map fun r => (.anchor r.1, r.2)
  else if c = '!' then s.nodeToken (readTag s.flow)
  else if c = '|' && !s.flow then s.block false fuel
  else if c = '>' && !s.flow then s.block true fuel
  else if c = '\'' then s.nodeToken (quoted .single fuel)
  else if c = '"' then s.nodeToken (quoted .double fuel)
  else if startsPlain s.flow c cs then s.plain fuel
  else .error .unexpectedCharacter

/-- Reads the token here. -/
def next (fuel : Nat) (c : Char) (cs : List Char) (s : Progress) : Except Error Progress :=
  if s.place.column = 0 && c = '%' then s.documentToken readDirective
  else if s.place.atMarker then
    s.documentToken fun p =>
      .ok (if c = '-' then .documentStart else .documentEnd, p.skip 3)
  else nodeOrIndicator fuel c cs s

/-- Reads tokens to the end of the text.  `fuel` bounds the number of characters. -/
def run : Nat → Progress → Except Error (List Token)
  | 0, _ => .error .unexpectedCharacter
  | fuel + 1, s => do
    let s ← (s.skipGaps (fuel + 1)).dropStale
    let s := s.closeBeyond s.place.column
    match s.place.rest with
    | [] =>
      let s ← s.closeAll.dropMark
      return s.tokens.reverse
    | c :: cs => run fuel (← next (fuel + 1) c cs s)

end Progress

/-- The tokens of a text. -/
def tokens (cs : List Char) : Except Error (List Token) :=
  Progress.run (cs.length + 2) (.start cs)

end Extraction.Yaml
