import Extraction.Text.Hex

/-!
# Extraction.Json.Text

JSON strings: the escaped form of a text between quotation marks, and the text of
an escaped form.  The characters below the space are always escaped; everything
from the space on is written as it is, the quotation mark and the backslash apart.

* `readBody_body` — reading undoes writing, whatever follows the closing mark.
-/

namespace Extraction.Json

/-- Why a text is not a JSON document. -/
inductive Error where
  | unexpectedEnd
  | unexpected (c : Char)
  | numberOutOfRange
  | badEscape
  | loneSurrogate
  | controlCharacter
  | nestedTooDeeply
  | trailingCharacters
deriving Repr, DecidableEq

/-- The message of an error. -/
def Error.message : Error → String
  | .unexpectedEnd => "the text ends in the middle of a value"
  | .unexpected c => "unexpected character " ++ String.singleton c
  | .numberOutOfRange => "number out of range"
  | .badEscape => "invalid escape"
  | .loneSurrogate => "lone surrogate in an escape"
  | .controlCharacter => "control character in a string"
  | .nestedTooDeeply => "nested too deeply"
  | .trailingCharacters => "characters after the document"

/-! ## writing -/

/-- The written form of one character of a string. -/
def escape (c : Char) : List Char :=
  if c = '"' then ['\\', '"']
  else if c = '\\' then ['\\', '\\']
  else if c = '\n' then ['\\', 'n']
  else if c = '\r' then ['\\', 'r']
  else if c = '\t' then ['\\', 't']
  else if c = '\x08' then ['\\', 'b']
  else if c = '\x0c' then ['\\', 'f']
  else if c.toNat < 32 then '\\' :: 'u' :: Text.Hex.padded Text.Hex.digit 4 c.toNat
  else [c]

/-- The characters between the quotation marks: the `escape` of each one. -/
def body (cs : List Char) : List Char := cs.flatMap escape

/-- The `body` of a string with its quotation marks. -/
def quoted (s : String) : List Char := '"' :: body s.toList ++ ['"']

/-! ## reading -/

/-- The value of four hexadecimal digits. -/
def fourDigits? (a b c d : Char) : Option Nat := Text.Hex.number? [a, b, c, d]

/-- The first code unit of a pair that stands for one character. -/
def isHighSurrogate (n : Nat) : Bool := 0xD800 ≤ n && n < 0xDC00

/-- The second code unit of such a pair. -/
def isLowSurrogate (n : Nat) : Bool := 0xDC00 ≤ n && n < 0xE000

/-- The code point that a high and a low surrogate stand for, each as `fourDigits?` reads it. -/
def pairValue (high low : Nat) : Nat := 0x10000 + (high - 0xD800) * 0x400 + (low - 0xDC00)

/-- The character that a letter stands for after a backslash. -/
def unescape? (c : Char) : Option Char :=
  if c = '"' || c = '\\' || c = '/' then some c
  else if c = 'b' then some '\x08'
  else if c = 'f' then some '\x0c'
  else if c = 'n' then some '\n'
  else if c = 'r' then some '\r'
  else if c = 't' then some '\t'
  else none

/-- Puts a character in front of the text that was read. -/
def prepend (c : Char) (r : List Char × List Char) : List Char × List Char := (c :: r.1, r.2)

/-- Reads a string up to its closing mark; answers its text and what follows the mark. -/
def readBody : List Char → Except Error (List Char × List Char)
  | [] => .error .unexpectedEnd
  | '"' :: rest => .ok ([], rest)
  | '\\' :: 'u' :: a :: b :: c :: d :: rest =>
    match fourDigits? a b c d with
    | none => .error .badEscape
    | some n =>
      if isLowSurrogate n then .error .loneSurrogate
      else if isHighSurrogate n then
        match rest with
        | '\\' :: 'u' :: e :: f :: g :: h :: rest =>
          match fourDigits? e f g h with
          | none => .error .badEscape
          | some m =>
            if isLowSurrogate m then (readBody rest).map (prepend (Char.ofNat (pairValue n m)))
            else .error .loneSurrogate
        | _ => .error .loneSurrogate
      else (readBody rest).map (prepend (Char.ofNat n))
  | '\\' :: c :: rest =>
    match unescape? c with
    | none => .error .badEscape
    | some c => (readBody rest).map (prepend c)
  | c :: rest =>
    if c.toNat < 32 then .error .controlCharacter
    else if c = '\\' then .error .unexpectedEnd
    else (readBody rest).map (prepend c)

/-! ## reading what was written -/

/-- `fourDigits?` takes back the number of a control character. -/
theorem fourDigits_padded {n : Nat} (h : n < 32) :
    ∃ a b c d, Text.Hex.padded Text.Hex.digit 4 n = [a, b, c, d] ∧
      fourDigits? a b c d = some n := by
  have : ∀ m : Fin 32, ∃ a b c d, Text.Hex.padded Text.Hex.digit 4 m.val = [a, b, c, d] ∧
      fourDigits? a b c d = some m.val := by
    intro m
    refine ⟨'0', '0', Text.Hex.digit (m.val / 16), Text.Hex.digit m.val, ?_⟩
    revert m; decide
  exact this ⟨n, h⟩

/-- `readBody` takes what `escape` makes of a character for the character. -/
theorem readBody_escape (c : Char) (t : List Char) :
    readBody (escape c ++ t) = (readBody t).map (prepend c) := by
  unfold escape
  split; · subst_vars; simp [readBody, unescape?]
  split; · subst_vars; simp [readBody, unescape?]
  split; · subst_vars; simp [readBody, unescape?]
  split; · subst_vars; simp [readBody, unescape?]
  split; · subst_vars; simp [readBody, unescape?]
  split; · subst_vars; simp [readBody, unescape?]
  split; · subst_vars; simp [readBody, unescape?]
  split
  · rename_i h
    obtain ⟨a, b, x, d, hp, hv⟩ := fourDigits_padded h
    have hl : isLowSurrogate c.toNat = false := by simp [isLowSurrogate]; omega
    have hh : isHighSurrogate c.toNat = false := by simp [isHighSurrogate]; omega
    simp [hp, readBody, hv, hl, hh, Char.ofNat_toNat]
  · rename_i hq hb _ _ _ _ _ h
    rw [List.singleton_append, readBody]
    · simp [h, hb]
    all_goals simp_all

/-- `readBody` takes back the `body` of a text, up to the mark that closes it. -/
theorem readBody_body (cs rest : List Char) :
    readBody (body cs ++ '"' :: rest) = .ok (cs, rest) := by
  induction cs with
  | nil => rfl
  | cons c cs ih =>
    simp only [body, List.flatMap_cons, List.append_assoc] at ih ⊢
    rw [readBody_escape, ih]
    rfl

end Extraction.Json
