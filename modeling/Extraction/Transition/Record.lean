import Extraction.Log.Level
import Extraction.Text.Quoted
import Extraction.Transition.Cursor
import Extraction.Transition.Token

/-!
# Extraction.Transition.Record

What the reading and matching of transitions tells the log, as data.  The level, the
part of the program that a record comes from, and the wording are functions of the
record.
-/

namespace Extraction.Transition

open Document

/-- A record of the log. -/
inductive Record where
  /-- An expression was read. -/
  | parsed (token : Token)
  /-- A segment matched on the way along a path. -/
  | matched (step : Cursor.Step)
  /-- A path led to a value that passed its checks. -/
  | resolved (token : Token) (value : Value)
  /-- A path led nowhere. -/
  | unmatched (token : Token)
  /-- All transitions were applied. -/
  | produced (transitions values : Nat)

namespace Record

def level : Record → Log.Level
  | parsed _ | resolved _ _ | produced _ _ => .debug
  | matched _ => .trace
  | unmatched _ => .warn

/-- The part of the program that a record comes from. -/
def target : Record → String
  | parsed _ => "datatransit::transition::parser"
  | matched _ | resolved _ _ | unmatched _ => "datatransit::transition::matcher"
  | produced _ _ => "datatransit::transition::command"

/-- The optional name of a value as the log shows it. -/
def aliasText : Option String → String
  | none => "None"
  | some name => "Some(" ++ Text.quote name ++ ")"

def text : Record → String
  | parsed t =>
    "parsed transition '" ++ t.expression ++ "': path=" ++ Text.bracket (t.path.map Text.quote) ++
      " assertions=" ++ Text.bracket (t.assertions.map Assertion.title) ++
      " alias=" ++ aliasText t.aliasName
  | matched s => "matched '" ++ s.segment ++ "' at depth " ++ Decimal.text s.depth
  | resolved t v =>
    "transition '" ++ t.expression ++ "' resolved to " ++ v.typeName ++ " stored as '" ++
      t.outputName ++ "'"
  | unmatched t => "transition '" ++ t.expression ++ "' matched nothing"
  | produced transitions values =>
    Decimal.text transitions ++ " transitions produced " ++ Decimal.text values ++ " values"

end Record

end Extraction.Transition
