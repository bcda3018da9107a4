import Extraction.Text.Hex

/-!
# Extraction.Toml.Text

TOML strings of the four kinds, written and read.  In basic strings a backslash begins
an escape, literal strings hold no escapes, and strings of either kind may extend over
several lines between triple marks.

A text is written in the first of these forms that shows it as it is: basic, literal,
basic over several lines, literal over several lines.  If none of them does, it is
written with escapes.
-/

namespace Extraction.Toml

/-! ## characters -/

/-- The control characters that no string holds unescaped. -/
def isControl (c : Char) : Bool := (c.toNat < 0x20 && c ≠ '\t') || c = '\x7f'

/-- A line break at the front of a text. -/
def afterBreak? : List Char → Option (List Char)
  | '\n' :: cs => some cs
  | '\r' :: '\n' :: cs => some cs
  | _ => none

/-! ## reading -/

/-- The character that a letter stands for after a backslash. -/
def unescape? (c : Char) : Option Char :=
  if c = '"' || c = '\\' then some c
  else if c = 'b' then some '\x08'
  else if c = 't' then some '\t'
  else if c = 'n' then some '\n'
  else if c = 'f' then some '\x0c'
  else if c = 'r' then some '\r'
  else none

/-- The character whose code hexadecimal digits denote. -/
def charOf? (digits : List Char) : Option Char := do
  let n ← Text.Hex.number? digits
  if n < 0xD800 || (0xE000 ≤ n && n < 0x110000) then some (Char.ofNat n) else none

/-- Puts a character in front of the text that was read. -/
def prepend (c : Char) (r : List Char × List Char) : List Char × List Char := (c :: r.1, r.2)

/-- Reads a basic string up to its closing mark. -/
def readBasic? : List Char → Option (List Char × List Char)
  | [] => none
  | '"' :: rest => some ([], rest)
  | '\\' :: 'u' :: a :: b :: c :: d :: rest => do
    let x ← charOf? [a, b, c, d]
    (readBasic? rest).map (prepend x)
  | '\\' :: 'U' :: a :: b :: c :: d :: e :: f :: g :: h :: rest => do
    let x ← charOf? [a, b, c, d, e, f, g, h]
    (readBasic? rest).map (prepend x)
  | '\\' :: c :: rest => do
    let x ← unescape? c
    (readBasic? rest).map (prepend x)
  | c :: rest => if isControl c || c = '\\' then none else (readBasic? rest).map (prepend c)

/-- Reads a literal string up to its closing mark. -/
def readLiteral? : List Char → Option (List Char × List Char)
  | [] => none
  | '\'' :: rest => some ([], rest)
  | c :: rest => if isControl c then none else (readLiteral? rest).map (prepend c)

/-- The marks that belong to a text before its triple closing mark, and what follows it:
`rest` is what stands after three marks, and up to two more of them close the string
instead. -/
def closing (mark : Char) (rest : List Char) : List Char × List Char :=
  match rest with
  | a :: b :: cs =>
    if a = mark then if b = mark then ([mark, mark], cs) else ([mark], b :: cs)
    else ([], rest)
  | [a] => if a = mark then ([mark], []) else ([], rest)
  | [] => ([], [])

/-- The text begins with a line break after blanks. -/
def endsLine (cs : List Char) : Bool :=
  (afterBreak? (cs.dropWhile fun c => c = ' ' || c = '\t')).isSome

/-- Reads a basic string over several lines up to its closing marks.  After a backslash
at the end of a line the white space is left out; `skipping` tells that it is. -/
def readLongBasic? (skipping : Bool) : List Char → Option (List Char × List Char)
  | [] => none
  | '"' :: '"' :: '"' :: rest => some (closing '"' rest)
  | '\r' :: '\n' :: rest =>
    if skipping then readLongBasic? true rest else (readLongBasic? false rest).map (prepend '\n')
  | '\\' :: 'u' :: a :: b :: c :: d :: rest => do
    let x ← charOf? [a, b, c, d]
    (readLongBasic? false rest).map (prepend x)
  | '\\' :: 'U' :: a :: b :: c :: d :: e :: f :: g :: h :: rest => do
    let x ← charOf? [a, b, c, d, e, f, g, h]
    (readLongBasic? false rest).map (prepend x)
  | '\\' :: c :: rest =>
    if endsLine (c :: rest) then readLongBasic? true (c :: rest)
    else do
      let x ← unescape? c
      (readLongBasic? false rest).map (prepend x)
  | c :: rest =>
    if skipping && (c = ' ' || c = '\t' || c = '\n') then readLongBasic? true rest
    else if (isControl c && c ≠ '\n') || c = '\\' then none
    else (readLongBasic? false rest).map (prepend c)

/-- Reads a literal string over several lines up to its closing marks. -/
def readLongLiteral? : List Char → Option (List Char × List Char)
  | [] => none
  | '\'' :: '\'' :: '\'' :: rest => some (closing '\'' rest)
  | '\r' :: '\n' :: rest => (readLongLiteral? rest).map (prepend '\n')
  | c :: rest =>
    if isControl c && c ≠ '\n' then none else (readLongLiteral? rest).map (prepend c)

/-- A text without a line break at its front. -/
def dropBreak (cs : List Char) : List Char := (afterBreak? cs).getD cs

/-- Reads a string of any kind from its opening mark on. -/
def readString? : List Char → Option (List Char × List Char)
  | '"' :: '"' :: '"' :: cs => readLongBasic? false (dropBreak cs)
  | '"' :: cs => readBasic? cs
  | '\'' :: '\'' :: '\'' :: cs => readLongLiteral? (dropBreak cs)
  | '\'' :: cs => readLiteral? cs
  | _ => none

/-! ## writing -/

/-- The kinds of strings. -/
inductive StringKind where
  | basic
  | literal
  | longBasic
  | longLiteral
deriving DecidableEq

/-- The length of the longest run of a character. -/
def longestRun (mark : Char) (run : Nat) : List Char → Nat
  | [] => run
  | c :: cs => if c = mark then longestRun mark (run + 1) cs else max run (longestRun mark 0 cs)

/-- A text has characters that need an escape by their code or a letter. -/
def needsEscapes (cs : List Char) : Bool := cs.any fun c => isControl c && c ≠ '\n'

/-- The kind of string that a text is written as. -/
def StringKind.of (cs : List Char) : StringKind :=
  let breaks := cs.contains '\n'
  let escapes := needsEscapes cs
  let backslash := cs.contains '\\'
  if !escapes && !backslash && !cs.contains '"' && !breaks then basic
  else if !escapes && !cs.contains '\'' && !breaks then literal
  else if !escapes && !backslash && longestRun '"' 0 cs ≤ 2 then longBasic
  else if !escapes && longestRun '\'' 0 cs ≤ 2 then longLiteral
  else if breaks then longBasic
  else basic

/-- The escape of a character, if it has one in basic strings; line feeds and quotation
marks are not decided here. -/
def escape? (c : Char) : Option (List Char) :=
  if c = '\x08' then some ['\\', 'b']
  else if c = '\t' then some ['\\', 't']
  else if c = '\x0c' then some ['\\', 'f']
  else if c = '\r' then some ['\\', 'r']
  else if c = '\\' then some ['\\', '\\']
  else if isControl c && c ≠ '\n' then
    some ('\\' :: 'u' :: Text.Hex.padded Text.Hex.upperDigit 4 c.toNat)
  else none

/-- The text between the marks of a basic string. -/
def basicBody : List Char → List Char
  | [] => []
  | c :: cs =>
    (if c = '"' then ['\\', '"'] else if c = '\n' then ['\\', 'n'] else (escape? c).getD [c]) ++
      basicBody cs

/-- The text between the marks of a basic string over several lines.  The third quotation
mark in a row, `run` of which stand before, is escaped. -/
def longBasicBody (run : Nat) : List Char → List Char
  | [] => []
  | c :: cs =>
    if c = '"' then
      if run = 2 then '\\' :: '"' :: longBasicBody 0 cs else '"' :: longBasicBody (run + 1) cs
    else (escape? c).getD [c] ++ longBasicBody 0 cs

/-- A text as a string. -/
def writeString (cs : List Char) : List Char :=
  match StringKind.of cs with
  | .basic => '"' :: basicBody cs ++ ['"']
  | .literal => '\'' :: cs ++ ['\'']
  | .longBasic => ['"', '"', '"', '\n'] ++ longBasicBody 0 cs ++ ['"', '"', '"']
  | .longLiteral => ['\'', '\'', '\'', '\n'] ++ cs ++ ['\'', '\'', '\'']

end Extraction.Toml
