import Extraction.Decimal.Digits
import Extraction.Toml.Value

/-!
# Extraction.Toml.Moment

Dates and times: a date, a time, or both with an optional offset.
-/

namespace Extraction.Toml

/-- The number of two digits at the front of a text, if it is within bounds. -/
def twoDigits? (least most : Nat) : List Char → Option (List Char)
  | a :: b :: cs =>
    let n := Decimal.value [a, b]
    if Decimal.isDigit a && Decimal.isDigit b && least ≤ n && n ≤ most then some cs else none
  | _ => none

/-- The text after a character at its front. -/
def after? (c : Char) : List Char → Option (List Char)
  | d :: cs => if d = c then some cs else none
  | [] => none

def isLeapYear (year : Nat) : Bool := year % 4 == 0 && (year % 100 != 0 || year % 400 == 0)

/-- The number of days in a month. -/
def daysIn (year month : Nat) : Nat :=
  if month = 2 then if isLeapYear year then 29 else 28
  else if month = 4 || month = 6 || month = 9 || month = 11 then 30
  else 31

/-- The text begins like a date. -/
def startsDate : List Char → Bool
  | a :: b :: c :: d :: '-' :: _ => [a, b, c, d].all Decimal.isDigit
  | _ => false

/-- The text begins like a time. -/
def startsTime : List Char → Bool
  | a :: b :: ':' :: _ => [a, b].all Decimal.isDigit
  | _ => false

/-- The text after a date. -/
def afterDate? (cs : List Char) : Option (List Char) := do
  let year := Decimal.value (cs.take 4)
  let afterYear := cs.drop 5
  let afterMonth ← twoDigits? 1 12 afterYear
  let month := Decimal.value (afterYear.take 2)
  twoDigits? 1 (daysIn year month) (← after? '-' afterMonth)

/-- The text after the fraction of a second, if there is one. -/
def afterFraction (cs : List Char) : List Char :=
  match cs with
  | '.' :: ds =>
    match ds with
    | d :: _ => if Decimal.isDigit d then ds.dropWhile Decimal.isDigit else cs
    | [] => cs
  | _ => cs

/-- The text after a time. -/
def afterTime? (cs : List Char) : Option (List Char) := do
  let cs ← twoDigits? 0 23 cs
  let cs ← twoDigits? 0 59 (← after? ':' cs)
  let cs ← twoDigits? 0 60 (← after? ':' cs)
  return afterFraction cs

/-- The text after an offset, if there is one. -/
def afterOffset? : List Char → Option (List Char)
  | c :: cs =>
    if c = 'Z' || c = 'z' then some cs
    else if c = '+' || c = '-' then do twoDigits? 0 59 (← after? ':' (← twoDigits? 0 23 cs))
    else some (c :: cs)
  | [] => some []

/-- The text after a date, and after a time and an offset if they follow. -/
def afterDateAndTime? (cs : List Char) : Option (List Char) := do
  match ← afterDate? cs with
  | c :: rest =>
    if (c = 'T' || c = 't' || c = ' ') && startsTime rest then
      afterOffset? (← afterTime? rest)
    else return c :: rest
  | [] => return []

/-- Reads a date or a time; `none` if the text does not begin like one. -/
def readMoment? (cs : List Char) : Option (Option (Value × List Char)) :=
  let result (rest : Option (List Char)) :=
    rest.map fun rest => (Value.moment (String.ofList (cs.take (cs.length - rest.length))), rest)
  if startsDate cs then some (result (afterDateAndTime? cs))
  else if startsTime cs then some (result (afterTime? cs))
  else none

end Extraction.Toml
