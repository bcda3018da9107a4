/-!
# Extraction.Text.Letter

Lower-case forms of the letters `A` to `Z`.
-/

namespace Extraction.Text

/-- The lower-case form of a letter from `A` to `Z`; every other character is kept. -/
def lower (c : Char) : Char :=
  if 'A' ≤ c ∧ c ≤ 'Z' then Char.ofNat (c.toNat + 32) else c

/-- A text whose letters from `A` to `Z` are in lower case. -/
def lowerText (s : String) : String := String.ofList (s.toList.map lower)

end Extraction.Text
