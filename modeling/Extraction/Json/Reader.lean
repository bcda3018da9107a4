import Extraction.Json.Number

/-!
# Extraction.Json.Reader

Reading a JSON document.  The whole text has to be one value with blanks around it;
a repeated key keeps its first place and takes the last value.

* `read` refuses documents whose containers nest deeper than `maxNesting`.
-/

namespace Extraction.Json

open Document

/-- How deep containers may nest. -/
def maxNesting : Nat := 127

def isBlank (c : Char) : Bool := c = ' ' || c = '\n' || c = '\t' || c = '\r'

/-- Drops the blanks at the front of a text. -/
def skip (cs : List Char) : List Char := cs.dropWhile isBlank

/-- The rest of a text after a word at its front. -/
def word? : List Char → List Char → Option (List Char)
  | [], cs => some cs
  | w :: ws, c :: cs => if w = c then word? ws cs else none
  | _ :: _, [] => none

/-- Reads one of the three words, if `word?` finds it. -/
def readWord (word : String) (v : Value) (cs : List Char) : Except Error (Value × List Char) :=
  match word? word.toList cs with
  | some rest => .ok (v, rest)
  | none => .error (missing cs)

/-- The rest of a text after the colon between a key and its value. -/
def afterColon (cs : List Char) : Except Error (List Char) :=
  match skip cs with
  | ':' :: rest => .ok rest
  | rest => .error (missing rest)

mutual

/-- Reads a value after blanks.  `fuel` bounds the number of characters, `nesting` is
how many containers may still be opened inside each other. -/
def readValue : Nat → Nat → List Char → Except Error (Value × List Char)
  | 0, _, _ => .error .unexpectedEnd
  | fuel + 1, nesting, cs =>
    match skip cs with
    | [] => .error .unexpectedEnd
    | c :: cs =>
      if c = '"' then (readBody cs).map fun r => (.string (String.ofList r.1), r.2)
      else if c = '[' then
        match nesting with
        | 0 => .error .nestedTooDeeply
        | nesting + 1 =>
          match skip cs with
          | ']' :: rest => .ok (.array [], rest)
          | cs => (readItems fuel nesting cs).map fun r => (.array r.1, r.2)
      else if c = '\x7b' then
        match nesting with
        | 0 => .error .nestedTooDeeply
        | nesting + 1 =>
          match skip cs with
          | '\x7d' :: rest => .ok (.object [], rest)
          | cs => (readEntries fuel nesting cs).map fun r => (.ofPairs r.1, r.2)
      else if c = 't' then readWord "true" (.boolean true) (c :: cs)
      else if c = 'f' then readWord "false" (.boolean false) (c :: cs)
      else if c = 'n' then readWord "null" .null (c :: cs)
      else if c = '-' then (readNumber true cs).map fun r => (.number r.1, r.2)
      else (readNumber false (c :: cs)).map fun r => (.number r.1, r.2)

/-- Reads the items of a list up to its closing bracket, each by `readValue`. -/
def readItems : Nat → Nat → List Char → Except Error (List Value × List Char)
  | 0, _, _ => .error .unexpectedEnd
  | fuel + 1, nesting, cs => do
    let (v, cs) ← readValue fuel nesting cs
    match skip cs with
    | ',' :: cs => (readItems fuel nesting cs).map fun r => (v :: r.1, r.2)
    | ']' :: cs => .ok ([v], cs)
    | cs => .error (missing cs)

/-- Reads the entries of an object up to its closing brace, each value by `readValue`. -/
def readEntries : Nat → Nat → List Char → Except Error (List (String × Value) × List Char)
  | 0, _, _ => .error .unexpectedEnd
  | fuel + 1, nesting, cs =>
    match skip cs with
    | '"' :: cs => do
      let (key, cs) ← readBody cs
      let cs ← afterColon cs
      let (v, cs) ← readValue fuel nesting cs
      match skip cs with
      | ',' :: cs => (readEntries fuel nesting cs).map fun r => ((String.ofList key, v) :: r.1, r.2)
      | '\x7d' :: cs => .ok ([(String.ofList key, v)], cs)
      | cs => .error (missing cs)
    | cs => .error (missing cs)

end

/-- Reads a document that takes up the whole text, with containers at most `maxNesting` deep. -/
def readChars (cs : List Char) : Except Error Value := do
  let (v, rest) ← readValue (2 * cs.length + 2) maxNesting cs
  if (skip rest).isEmpty then return v else .error .trailingCharacters

def read (text : String) : Except Error Value := readChars text.toList

end Extraction.Json
