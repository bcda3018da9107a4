import Extraction.Gzip.Bits

/-!
# Extraction.Gzip.Code

Canonical codes: of two symbols the one with the shorter word comes first, and of two
words of one length the one for the smaller symbol.  So the lengths of the words
determine the code.
-/

namespace Extraction.Gzip

/-- The longest word. -/
def maxWord : Nat := 15

/-- A code: the symbols with words of length 1, 2, … in order. -/
abbrev Code := List (List Nat)

namespace Code

/-- The symbols with words of one length; the list gives the length for each symbol. -/
def symbolsOf (lengths : List Nat) (length : Nat) : List Nat :=
  (lengths.zipIdx.filter fun p => p.1 == length).map Prod.snd

/-- The words of a length that are not taken by shorter ones, after each length; `none`
if more words are needed than there are. -/
def free? : Nat → Code → Option Nat
  | free, [] => some free
  | free, symbols :: longer =>
    if 2 * free < symbols.length then none else free? (2 * free - symbols.length) longer

/-- The code with given lengths; zero stands for a symbol without a word.  It has to
use up all words, unless it has at most one symbol. -/
def ofLengths? (lengths : List Nat) : Option Code :=
  let code := (List.range maxWord).map fun i => symbolsOf lengths (i + 1)
  match free? 1 code with
  | none => none
  | some free => if free = 0 || code.flatten.length ≤ 1 then some code else none

/-- Reads a word from its beginning on; `word` is its value so far and `first` the
first word of this length. -/
def symbolFrom? : Code → Nat → Nat → Bits → Option (Nat × Bits)
  | [], _, _, _ => none
  | symbols :: longer, word, first, s => do
    let (b, s) ← s.next?
    let word := 2 * word + b.toNat
    let first := 2 * first
    match symbols[word - first]? with
    | some x => return (x, s)
    | none => symbolFrom? longer word (first + symbols.length) s

/-- Reads a word. -/
def symbol? (c : Code) (s : Bits) : Option (Nat × Bits) := c.symbolFrom? 0 0 s

end Code

end Extraction.Gzip
